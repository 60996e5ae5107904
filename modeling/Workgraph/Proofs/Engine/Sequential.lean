import Workgraph.Engine.Run
import Workgraph.Proofs.Engine.Moves
import Workgraph.Proofs.Graph.Loading
/-!
# One thing after another

The reference for how a workflow runs: no schedule, no clock and no waiting. The branches of a fork
are run to their ends one after another, each with what it was given, and what they end with is
dropped. Sleeping does nothing and every call is answered at once, so a workflow has the same
outcome as one whose delays are left out (`Graph.same_processAll_undelayed`).
-/

namespace Workgraph

namespace Process

mutual

/-- Runs a process to its end in a world, with answers to its calls. -/
def evaluate (env : Surroundings) (answers : CallRequest → Except Fault CallAnswer) :
    Process → World → Except Fault (World × Context)
  | done context, w => .ok (w, context)
  | fail fault, _ => .error fault
  | visit id type next, w => (next ()).evaluate env answers (w.enter env id type)
  | warn words next, w => (next ()).evaluate env answers (w.notify .warning words)
  | store request next, w =>
    match w.repository.perform env request.entity request.action with
    | (.ok v, repository) => (next v).evaluate env answers { w with repository }
    | (.error f, _) => .error f
  | call request next, w =>
    match answers request with
    | .ok answer => (next answer).evaluate env answers (w.remember request)
    | .error f => .error f
  | sleep _ next, w => (next ()).evaluate env answers w
  | fork branches next, w =>
    match evaluateAll env answers branches w with
    | .ok w' => (next ()).evaluate env answers w'
    | .error f => .error f

/-- Runs several processes to their ends, one after another. -/
def evaluateAll (env : Surroundings) (answers : CallRequest → Except Fault CallAnswer) :
    List Process → World → Except Fault World
  | [], w => .ok w
  | p :: rest, w =>
    match p.evaluate env answers w with
    | .ok (w', _) => evaluateAll env answers rest w'
    | .error f => .error f

end

variable {env : Surroundings} {answers : CallRequest → Except Fault CallAnswer}

/-- One process and then another come to what the second makes of the first. -/
theorem evaluate_bind (p : Process) (k : Context → Process) : ∀ w : World,
    (p.bind k).evaluate env answers w =
      (p.evaluate env answers w).bind fun r => (k r.2).evaluate env answers r.1 := by
  induction p with
  | done context => exact fun w => rfl
  | fail f => exact fun w => rfl
  | visit id type next ih => exact fun w => ih () _
  | warn words next ih => exact fun w => ih () _
  | store request next ih =>
    intro w
    simp only [bind, evaluate]
    split
    · exact ih _ _
    · rfl
  | call request next ih =>
    intro w
    simp only [bind, evaluate]
    split
    · exact ih _ _
    · rfl
  | sleep seconds next ih => exact fun w => ih () w
  | fork branches next _ ih =>
    intro w
    simp only [bind, evaluate]
    split
    · exact ih () _
    · rfl

/-- Two processes have the same outcome in every world. -/
def Same (env : Surroundings) (answers : CallRequest → Except Fault CallAnswer) (p q : Process) :
    Prop := ∀ w, p.evaluate env answers w = q.evaluate env answers w

namespace Same

variable {p q : Process}

theorem refl (p : Process) : Same env answers p p := fun _ => rfl

theorem visit {id type : String} {next next' : Unit → Process}
    (h : Same env answers (next ()) (next' ())) :
    Same env answers (.visit id type next) (.visit id type next') := fun _ => h _

theorem warn {words : String} {next next' : Unit → Process}
    (h : Same env answers (next ()) (next' ())) :
    Same env answers (.warn words next) (.warn words next') := fun _ => h _

theorem warnAll {words : List String} {next next' : Unit → Process}
    (h : Same env answers (next ()) (next' ())) :
    Same env answers (warnAll words next) (warnAll words next') := by
  induction words with
  | nil => exact h
  | cons w rest ih => exact warn ih

theorem ofExcept {α : Type} {result : Except Fault α} {k k' : α → Process}
    (h : ∀ a, Same env answers (k a) (k' a)) :
    Same env answers (ofExcept result k) (ofExcept result k') := by
  cases result with
  | ok a => exact h a
  | error f => exact refl _

theorem bind {k k' : Context → Process} (h : Same env answers p q)
    (hk : ∀ c, Same env answers (k c) (k' c)) :
    Same env answers (p.bind k) (q.bind k') := by
  intro w
  rw [evaluate_bind, evaluate_bind, h w]
  congr 1
  funext r
  exact hk r.2 r.1

theorem turns {itemVariable : Option String} {body body' : Context → Process}
    (h : ∀ c, Same env answers (body c) (body' c)) (items : List Value) :
    ∀ (index : Nat) (context : Context), Same env answers
      (turns itemVariable body index items context)
      (turns itemVariable body' index items context) := by
  induction items with
  | nil => exact fun _ _ => refl _
  | cons item rest ih => exact fun index context => bind (h _) (ih (index + 1))

theorem runFilled {run run' : String → Context → Process}
    (h : ∀ id c, Same env answers (run id c) (run' id c)) (id : Option String) (c : Context) :
    Same env answers (runFilled run id c) (runFilled run' id c) := by
  unfold Workgraph.runFilled
  cases filled id with
  | none => exact refl _
  | some t => exact h t c

theorem evaluateAll_map {β : Type} {f f' : β → Process} (h : ∀ b, Same env answers (f b) (f' b))
    (bs : List β) : ∀ w : World,
      evaluateAll env answers (bs.map f) w = evaluateAll env answers (bs.map f') w := by
  induction bs with
  | nil => exact fun _ => rfl
  | cons b rest ih =>
    intro w
    simp only [List.map_cons, evaluateAll, h b w]
    split
    · exact ih _
    · rfl

theorem fork {β : Type} {f f' : β → Process} (h : ∀ b, Same env answers (f b) (f' b))
    (bs : List β) (next : Unit → Process) :
    Same env answers (.fork (bs.map f) next) (.fork (bs.map f') next) := by
  intro w
  simp only [evaluate, evaluateAll_map h bs w]

end Same

end Process

/-! ## Leaving delays out -/

/-- A task without its delay. -/
def Task.undelayed : Task → Task
  | .delay _ _ => .delay none .seconds
  | task => task

/-- A node without its delay. -/
def Node.undelayed (n : Node) : Node :=
  match n.behaviour with
  | .known task next => { n with behaviour := .known task.undelayed next }
  | .unknown .. => n

/-- A workflow without its delays. -/
def Graph.undelayed (g : Graph) : Graph := ⟨g.nodes.map Node.undelayed⟩

section
variable {env : Surroundings} {answers : CallRequest → Except Fault CallAnswer}
  {settings : Settings} {run run' : String → Context → Process}

/-- A delay comes to nothing. -/
theorem same_delay (duration : Option Binary64) (unit : TimeUnit) (id : String)
    (context : Context) :
    Process.Same env answers ((Task.delay duration unit).process settings run id context)
      (.done context) := by
  intro w
  simp only [Task.process]
  generalize Binary64.less (Binary64.zero false) (delaySeconds duration unit) = waits
  cases waits <;> rfl

theorem Task.same_undelayed (h : ∀ id c, Process.Same env answers (run id c) (run' id c))
    (task : Task) (id : String) (context : Context) :
    Process.Same env answers (task.process settings run id context)
      (task.undelayed.process settings run' id context) := by
  cases task with
  | condition conditions elseNode =>
    exact Process.Same.ofExcept fun target => Process.Same.runFilled h target context
  | loop arrayField itemVariable loopNode maxIterations =>
    apply Process.Same.ofExcept
    intro v
    cases v with
    | list items =>
      exact Process.Same.warnAll (Process.Same.turns (Process.Same.runFilled h loopNode) _ 0 context)
    | null => exact .refl _
    | _ => exact .refl _
  | parallel paths =>
    simp only [Task.undelayed, Task.process]
    split
    · exact .refl _
    · exact Process.Same.fork (fun t => h t context) _ _
  | delay duration unit =>
    intro w
    -- Either delay comes to what no delay comes to.
    rw [Task.undelayed, same_delay duration unit id context w, same_delay none .seconds id context w]
  | _ => exact .refl _

theorem Node.same_undelayed (h : ∀ id c, Process.Same env answers (run id c) (run' id c))
    (n : Node) (context : Context) :
    Process.Same env answers
      ((n.behaviour.process settings run n.id context).bind (runFilled run n.next))
      ((n.undelayed.behaviour.process settings run' n.undelayed.id context).bind
        (runFilled run' n.undelayed.next)) := by
  -- A delay is left out of a task only; the node to go on with is the same.
  obtain ⟨id, name, behaviour⟩ := n
  cases behaviour with
  | known task next =>
    exact (Task.same_undelayed h task id context).bind (Process.Same.runFilled h next)
  | unknown type config =>
    exact Process.Same.bind (.refl _) (Process.Same.runFilled h _)

end

namespace Node

theorem id_undelayed (n : Node) : n.undelayed.id = n.id := by
  obtain ⟨id, name, behaviour⟩ := n
  cases behaviour <;> rfl

theorem typeName_undelayed (n : Node) : n.undelayed.typeName = n.typeName := by
  obtain ⟨id, name, behaviour⟩ := n
  cases behaviour with
  | known task next => cases task <;> rfl
  | unknown type config => rfl

theorem targets_undelayed (n : Node) : n.undelayed.targets = n.targets := by
  obtain ⟨id, name, behaviour⟩ := n
  cases behaviour with
  | known task next => cases task <;> rfl
  | unknown type config => rfl

end Node

namespace Graph

variable {env : Surroundings} {answers : CallRequest → Except Fault CallAnswer}

theorem find?_undelayed (g : Graph) (id : String) :
    g.undelayed.find? id = (g.find? id).map Node.undelayed := by
  unfold find? undelayed
  simp only [List.find?_map]
  congr 2
  funext n
  simp [Node.id_undelayed]

theorem referenced_undelayed (g : Graph) : g.undelayed.referenced = g.referenced := by
  simp [referenced, undelayed, List.flatMap_map, Node.targets_undelayed]

theorem roots_undelayed (g : Graph) :
    g.undelayed.roots.map Node.id = g.roots.map Node.id := by
  have hreferenced := referenced_undelayed g
  unfold roots
  unfold undelayed at hreferenced ⊢
  cases hnodes : g.nodes with
  | nil => rfl
  | cons entry rest =>
    rw [hnodes, List.map_cons] at hreferenced
    simp only [List.map_cons, hreferenced, Node.id_undelayed, List.filter_map, List.map_map]
    congr 1
    -- Which nodes run at top level depends on their ids and references, which delays have no part
    -- in.
    have hfilter : ((fun n : Node => !g.referenced.contains n.id && decide (n.id ≠ entry.id)) ∘
        Node.undelayed) = fun n => !g.referenced.contains n.id && decide (n.id ≠ entry.id) := by
      funext n
      simp [Node.id_undelayed]
    rw [hfilter]
    apply List.map_congr_left
    intro n _
    exact n.id_undelayed

theorem exists_undelayed {g : Graph} {P : Node → Prop} :
    (∃ m ∈ g.undelayed.nodes, P m) ↔ ∃ n ∈ g.nodes, P n.undelayed := by
  simp [undelayed]

theorem refers_undelayed {g : Graph} {a b : String} : g.undelayed.Refers a b ↔ g.Refers a b := by
  simp only [Refers, exists_undelayed, Node.id_undelayed, Node.targets_undelayed]

theorem refers_undelayed_eq (g : Graph) : g.undelayed.Refers = g.Refers := by
  funext a b
  exact propext refers_undelayed

/-- A workflow can be run if it can be run without its delays. -/
theorem sound_undelayed {g : Graph} : g.undelayed.Sound ↔ g.Sound := by
  have hids : g.undelayed.nodes.map Node.id = g.nodes.map Node.id := by
    simp [undelayed, Node.id_undelayed]
  have hnonempty : g.undelayed.nodes ≠ [] ↔ g.nodes ≠ [] := by simp [undelayed]
  have hresolved : (∀ n ∈ g.undelayed.nodes, ∀ t ∈ n.targets, ∃ m ∈ g.undelayed.nodes, m.id = t) ↔
      ∀ n ∈ g.nodes, ∀ t ∈ n.targets, ∃ m ∈ g.nodes, m.id = t := by
    simp only [exists_undelayed, Node.id_undelayed]
    simp [undelayed, Node.targets_undelayed]
  constructor
  · rintro ⟨hnodes, hnodup, hall, hacyclic⟩
    rw [hids] at hnodup
    rw [refers_undelayed_eq] at hacyclic
    exact ⟨hnonempty.1 hnodes, hnodup, hresolved.1 hall, hacyclic⟩
  · rintro ⟨hnodes, hnodup, hall, hacyclic⟩
    rw [← hids] at hnodup
    rw [← refers_undelayed_eq] at hacyclic
    exact ⟨hnonempty.2 hnodes, hnodup, hresolved.2 hall, hacyclic⟩

theorem depth_undelayed (g : Graph) : g.undelayed.depth = g.depth := by
  simp [depth, undelayed]

/-- **Leaving delays out does not matter** when one thing is done after another. -/
theorem same_process_undelayed (g : Graph) (settings : Settings) : ∀ (depth : Nat) (id : String)
    (context : Context), Process.Same env answers (g.process settings depth id context)
      (g.undelayed.process settings depth id context) := by
  intro depth
  induction depth with
  | zero => exact fun _ _ => .refl _
  | succ depth ih =>
    intro id context
    simp only [process, find?_undelayed]
    cases g.find? id with
    | none => exact .refl _
    | some n =>
      simp only [Option.map_some, Node.id_undelayed n, Node.typeName_undelayed n]
      apply Process.Same.visit
      have hnode : Process.Same env answers
          ((n.behaviour.process settings (g.process settings depth) n.id context).bind
            (runFilled (g.process settings depth) n.next)) _ := Node.same_undelayed ih n context
      rw [Node.id_undelayed] at hnode
      exact hnode

theorem same_processAll_undelayed (g : Graph) (settings : Settings) (depth : Nat)
    (ids : List String) (context : Context) :
    Process.Same env answers (g.processAll settings depth ids context)
      (g.undelayed.processAll settings depth ids context) := by
  induction ids generalizing context with
  | nil => exact .refl _
  | cons id rest ih => exact (same_process_undelayed g settings depth id context).bind ih

end Graph

end Workgraph
