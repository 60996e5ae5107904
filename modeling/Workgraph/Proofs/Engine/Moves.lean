import Mathlib.Logic.Relation
import Workgraph.Engine.World
/-!
# Moves of processes

Small steps of a process and its world, without a schedule. A process does one thing to the world at
a time, and of a fork any branch may move (`Process.Moves`). A fork ends when all its branches are
done, or once one of them has failed. What comes of a process and its world comes of them by such
steps (`Process.Runs`). In particular advancing a process does (`Process.runs_advance`).
-/

namespace Workgraph

/-- The trace of the second world continues that of the first. -/
def World.Grows (w w' : World) : Prop := w.trace.toList <+: w'.trace.toList

theorem World.Grows.refl (w : World) : w.Grows w := List.prefix_refl _

theorem World.Grows.trans {w w' w'' : World} (h : w.Grows w') (h' : w'.Grows w'') : w.Grows w'' :=
  List.IsPrefix.trans h h'

namespace Process

/-- Induction on processes, for the branches of a fork as well as for what follows it. -/
@[induction_eliminator]
theorem induction {motive : Process → Prop} (done : ∀ context, motive (done context))
    (fail : ∀ fault, motive (fail fault))
    (visit : ∀ id type next, (∀ u, motive (next u)) → motive (visit id type next))
    (warn : ∀ words next, (∀ u, motive (next u)) → motive (warn words next))
    (store : ∀ request next, (∀ v, motive (next v)) → motive (store request next))
    (call : ∀ request next, (∀ a, motive (next a)) → motive (call request next))
    (sleep : ∀ seconds next, (∀ u, motive (next u)) → motive (sleep seconds next))
    (fork : ∀ branches next, (∀ b ∈ branches, motive b) → (∀ u, motive (next u)) →
      motive (fork branches next)) (p : Process) : motive p :=
  @Process.rec motive (fun branches => ∀ b ∈ branches, motive b) done fail visit warn store call
    sleep fork (by simp) (fun _ _ hfirst hrest => List.forall_mem_cons.2 ⟨hfirst, hrest⟩) p

variable {env : Surroundings} {transport : Transport}

/-- One step of a process in a world. -/
inductive Moves (env : Surroundings) (transport : Transport) :
    World × Process → World × Process → Prop where
  | visit {id type : String} {next : Unit → Process} {w : World} :
      Moves env transport (w, .visit id type next) (w.enter env id type, next ())
  | warn {words : String} {next : Unit → Process} {w : World} :
      Moves env transport (w, .warn words next) (w.notify .warning words, next ())
  | answer {request : StoreRequest} {next : Value → Process} {w : World} {v : Value}
      {repository : Repository}
      (hperform : w.repository.perform env request.entity request.action = (.ok v, repository)) :
      Moves env transport (w, .store request next) ({ w with repository }, next v)
  | refuse {request : StoreRequest} {next : Value → Process} {w : World} {f : Fault}
      {repository : Repository}
      (hperform : w.repository.perform env request.entity request.action = (.error f, repository)) :
      Moves env transport (w, .store request next) ({ w with repository }, .fail f)
  | call {request : CallRequest} {next : CallAnswer → Process} {w : World} :
      Moves env transport (w, .call request next)
        (w.remember request, afterCall (transport request).outcome next)
  | sleep {seconds : Binary64} {next : Unit → Process} {w : World} :
      Moves env transport (w, .sleep seconds next) (w, next ())
  | branch {before after : List Process} {p p' : Process} {next : Unit → Process} {w w' : World}
      (hbranch : Moves env transport (w, p) (w', p')) :
      Moves env transport (w, .fork (before ++ p :: after) next)
        (w', .fork (before ++ p' :: after) next)
  | join {branches : List Process} {next : Unit → Process} {w : World}
      (hdone : ∀ b ∈ branches, ∃ context, b = .done context) :
      Moves env transport (w, .fork branches next) (w, next ())
  | abort {branches : List Process} {next : Unit → Process} {w : World} {f : Fault}
      (hfailed : .fail f ∈ branches) :
      Moves env transport (w, .fork branches next) (w, .fail f)

/-- A process and its world come to another by steps. -/
def Runs (env : Surroundings) (transport : Transport) :
    World × Process → World × Process → Prop :=
  Relation.ReflTransGen (Moves env transport)

theorem Moves.grows {x y : World × Process} (h : Moves env transport x y) : x.1.Grows y.1 := by
  induction h with
  | @visit id type next w =>
    refine ⟨[⟨id, type, env.stamp⟩], ?_⟩
    simp [World.enter]
  | branch _ ih => exact ih
  | _ => exact World.Grows.refl _

namespace Runs

variable {x y z : World × Process}

theorem refl (x : World × Process) : Runs env transport x x := Relation.ReflTransGen.refl

theorem trans (h : Runs env transport x y) (h' : Runs env transport y z) :
    Runs env transport x z :=
  Relation.ReflTransGen.trans h h'

theorem move (h : Moves env transport x y) : Runs env transport x y :=
  Relation.ReflTransGen.single h

theorem grows (h : Runs env transport x y) : x.1.Grows y.1 := by
  induction h with
  | refl => exact World.Grows.refl _
  | tail _ hstep ih => exact ih.trans hstep.grows

/-- A process that has failed stays so. -/
theorem of_fail {w w' : World} {f : Fault} {q : Process}
    (h : Runs env transport (w, .fail f) (w', q)) : q = .fail f := by
  rcases Relation.ReflTransGen.cases_head h with heq | ⟨z, hmove, -⟩
  · cases heq
    rfl
  · cases hmove

/-- Nothing comes of a process that is done. -/
theorem eq_of_done {w : World} {context : Context} {y : World × Process}
    (h : Runs env transport (w, .done context) y) : y = (w, .done context) := by
  rcases Relation.ReflTransGen.cases_head h with heq | ⟨z, hmove, -⟩
  · exact heq.symm
  · cases hmove

/-- A process that is done stays so. -/
theorem of_done {w w' : World} {context : Context} {q : Process}
    (h : Runs env transport (w, .done context) (w', q)) : q = .done context := by
  cases h.eq_of_done
  rfl

/-- What a branch can do, the fork can do. -/
theorem branch {before after : List Process} {next : Unit → Process} (h : Runs env transport x y) :
    Runs env transport (x.1, .fork (before ++ x.2 :: after) next)
      (y.1, .fork (before ++ y.2 :: after) next) := by
  induction h with
  | refl => exact refl _
  | tail _ hmove ih => exact ih.trans (move (.branch hmove))

theorem set {ps : List Process} {k : Nat} {next : Unit → Process} {w w' : World} {q q' : Process}
    (hk : ps[k]? = some q) (h : Runs env transport (w, q) (w', q')) :
    Runs env transport (w, .fork ps next) (w', .fork (ps.set k q') next) := by
  -- The list is split at the branch, so that the branch is the one that moves.
  obtain ⟨hlt, rfl⟩ := List.getElem?_eq_some_iff.1 hk
  have hsplit : ps = ps.take k ++ ps[k] :: ps.drop (k + 1) := by
    rw [← List.drop_eq_getElem_cons hlt, List.take_append_drop]
  have hset : ps.set k q' = ps.take k ++ q' :: ps.drop (k + 1) := by
    rw [List.set_eq_take_append_cons_drop, if_pos hlt]
  have hfork : Runs env transport (w, .fork (ps.take k ++ ps[k] :: ps.drop (k + 1)) next) _ :=
    h.branch
  rw [← hsplit] at hfork
  rw [hset]
  exact hfork

end Runs

end Process

/-! ## Advancing -/

/-- What is left of a process where it comes to a halt. -/
inductive Pause.Leaves : Pause → Process → Prop where
  | finished {context : Context} : Leaves (.ended (.finished context)) (.done context)
  | failed {f : Fault} : Leaves (.ended (.failed f)) (.fail f)
  | asleep {seconds : Binary64} {next : Unit → Process} : Leaves (.asleep seconds next) (next ())
  | forked {branches : List Process} {next : Unit → Process} :
      Leaves (.forked branches next) (.fork branches next)

namespace Process

variable {env : Surroundings} {transport : Transport}

/-- Advancing a process is a sequence of steps. -/
theorem runs_advance (env : Surroundings) (transport : Transport) (p : Process) : ∀ w : World,
    ∃ q, (p.advance env transport w).2.Leaves q ∧
      Runs env transport (w, p) ((p.advance env transport w).1, q) := by
  induction p with
  | done context => exact fun w => ⟨_, .finished, .refl _⟩
  | fail f => exact fun w => ⟨_, .failed, .refl _⟩
  | visit id type next ih =>
    intro w
    obtain ⟨q, hq, hruns⟩ := ih () (w.enter env id type)
    exact ⟨q, hq, (Runs.move .visit).trans hruns⟩
  | warn words next ih =>
    intro w
    obtain ⟨q, hq, hruns⟩ := ih () (w.notify .warning words)
    exact ⟨q, hq, (Runs.move .warn).trans hruns⟩
  | store request next ih =>
    intro w
    simp only [advance]
    split
    · rename_i v repository hperform
      obtain ⟨q, hq, hruns⟩ := ih v { w with repository }
      exact ⟨q, hq, (Runs.move (.answer hperform)).trans hruns⟩
    · rename_i f repository hperform
      exact ⟨_, .failed, Runs.move (.refuse hperform)⟩
  | call request next ih =>
    intro w
    have hcall : Runs env transport (w, .call request next)
        (w.remember request, afterCall (transport request).outcome next) := Runs.move .call
    simp only [advance]
    -- A call that takes time is a step all the same; the process sleeps before it goes on.
    generalize isWait (transport request).delay = waits
    cases waits with
    | true => exact ⟨_, .asleep, hcall⟩
    | false =>
      simp only [Bool.false_eq_true, if_false]
      unfold afterCall at hcall
      split
      · rename_i answer houtcome
        rw [houtcome] at hcall
        obtain ⟨q, hq, hruns⟩ := ih answer (w.remember request)
        exact ⟨q, hq, hcall.trans hruns⟩
      · rename_i f houtcome
        rw [houtcome] at hcall
        exact ⟨_, .failed, hcall⟩
  | sleep seconds next ih => exact fun w => ⟨_, .asleep, Runs.move .sleep⟩
  | fork branches next _ ih => exact fun w => ⟨_, .forked, .refl _⟩

end Process

end Workgraph
