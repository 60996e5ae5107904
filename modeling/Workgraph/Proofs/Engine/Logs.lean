import Mathlib.Algebra.Ring.Nat
import Mathlib.Data.List.Forall2
import Workgraph.Engine.Handler
import Workgraph.Proofs.Engine.Moves
/-!
# What a process logs

The log of a run is the sequence of the visits in its trace. What a process may add to it is a
matter of the process alone: whatever the store and the calls answer, and in whichever order the
branches of its forks move, it is one of the words of the process (`Process.Logs`). A word is whole
if the process is done with it, and cut otherwise. Steps of a process log the beginning of a word,
and what is left of the process logs the rest (`Process.Adds.logs`).
-/

namespace Workgraph

/-- The node of an entry, and its type. -/
def TraceEntry.visit (t : TraceEntry) : String × String := (t.nodeId, t.type)

/-- The visits in the trace, in order. -/
def World.log (w : World) : List (String × String) := w.trace.toList.map TraceEntry.visit

theorem World.log_enter (w : World) (env : Surroundings) (id type : String) :
    (w.enter env id type).log = w.log ++ [(id, type)] := by
  simp [log, enter, TraceEntry.visit]

/-- Notices are not logged. -/
theorem World.log_foldl_notify (words : List String) (w : World) :
    (words.foldl (fun v word => v.notify .warning word) w).log = w.log := by
  induction words generalizing w with
  | nil => rfl
  | cons word rest ih => exact ih (w.notify .warning word)

/-! ## Interleavings -/

section
variable {α : Type} {l w : List α} {ws us : List (List α)}

/-- A word is made of the letters of several words: each letter is the first one that is left of one
of them. -/
inductive Interleaving {α : Type} : List (List α) → List α → Prop where
  | nil {ws : List (List α)} (hempty : ∀ w ∈ ws, w = []) : Interleaving ws []
  | cons {before after : List (List α)} {x : α} {w l : List α}
      (hrest : Interleaving (before ++ w :: after) l) :
      Interleaving (before ++ (x :: w) :: after) (x :: l)

namespace Interleaving

/-- Letters that come before those of one word come before all others. -/
theorem prepend {before after : List (List α)} (t : List α)
    (h : Interleaving (before ++ w :: after) l) :
    Interleaving (before ++ (t ++ w) :: after) (t ++ l) := by
  induction t with
  | nil => exact h
  | cons x t ih => exact .cons ih

theorem nothing {β : Type} (bs : List β) : Interleaving (bs.map fun _ => ([] : List α)) [] := by
  apply Interleaving.nil
  intro w hw
  obtain ⟨_, -, rfl⟩ := List.mem_map.1 hw
  rfl

theorem cons_nil (h : Interleaving ws l) : Interleaving ([] :: ws) l := by
  induction h with
  | nil hempty => exact .nil (List.forall_mem_cons.2 ⟨rfl, hempty⟩)
  | @cons before after x w l hrest ih => exact @Interleaving.cons _ ([] :: before) after x w l ih

/-- One word after another is an interleaving of them. -/
theorem flatten (ws : List (List α)) : Interleaving ws ws.flatten := by
  induction ws with
  | nil => exact .nil (by simp)
  | cons w rest ih =>
    have hfirst : Interleaving ([] ++ (w ++ []) :: rest) (w ++ rest.flatten) :=
      prepend w ih.cons_nil
    rw [List.append_nil] at hfirst
    exact hfirst

/-- An interleaving has all letters of the words. -/
theorem length_eq (h : Interleaving ws l) : l.length = (ws.map List.length).sum := by
  induction h with
  | @nil ws hempty =>
    have hzero : ws.map List.length = ws.map fun _ => 0 :=
      List.map_congr_left fun w hw => by rw [hempty w hw, List.length_nil]
    simp [hzero]
  | cons hrest ih =>
    simp only [List.length_cons, ih, List.map_append, List.map_cons, List.sum_append,
      List.sum_cons]
    omega

theorem exists_mem (h : Interleaving ws l) {x : α} (hx : x ∈ l) : ∃ w ∈ ws, x ∈ w := by
  induction h with
  | nil => cases hx
  | @cons before after y w l hrest ih =>
    rcases List.mem_cons.1 hx with rfl | hx
    · exact ⟨x :: w, by simp, List.mem_cons_self⟩
    · obtain ⟨v, hv, hxv⟩ := ih hx
      rcases List.mem_append.1 hv with hv | hv
      · exact ⟨v, List.mem_append_left _ hv, hxv⟩
      · rcases List.mem_cons.1 hv with rfl | hv
        · exact ⟨y :: v, by simp, List.mem_cons_of_mem y hxv⟩
        · exact ⟨v, by simp [hv], hxv⟩

end Interleaving

/-- What corresponds to a list with an item in the midst has one there, too. -/
theorem exists_split_of_forall₂ {β γ : Type} {R : β → γ → Prop} {before after : List β} {b : β}
    {cs : List γ} (h : List.Forall₂ R (before ++ b :: after) cs) : ∃ before' c after',
      cs = before' ++ c :: after' ∧ List.Forall₂ R before before' ∧ R b c ∧
        List.Forall₂ R after after' := by
  induction before generalizing cs with
  | nil =>
    cases h with
    | cons hb hafter => exact ⟨[], _, _, rfl, .nil, hb, hafter⟩
  | cons first before ih =>
    cases h with
    | cons hfirst hrest =>
      obtain ⟨before', c, after', rfl, hbefore, hc, hafter⟩ := ih hrest
      exact ⟨_ :: before', c, after', rfl, .cons hfirst hbefore, hc, hafter⟩

theorem forall₂_split {β γ : Type} {R : β → γ → Prop} {before after : List β} {b : β}
    {before' after' : List γ} {c : γ} (hbefore : List.Forall₂ R before before') (hc : R b c)
    (hafter : List.Forall₂ R after after') :
    List.Forall₂ R (before ++ b :: after) (before' ++ c :: after') := by
  induction hbefore with
  | nil => exact .cons hc hafter
  | cons hfirst _ ih => exact .cons hfirst ih

/-- An interleaving of beginnings of words is the beginning of an interleaving of the words. -/
theorem Interleaving.complete (h : Interleaving us l)
    (hbegins : List.Forall₂ (· <+: ·) us ws) : ∃ l', Interleaving ws l' ∧ l <+: l' := by
  -- The letters come in the order that they are in. What is missing of the words comes at the end.
  induction h generalizing ws with
  | nil => exact ⟨ws.flatten, .flatten ws, List.nil_prefix⟩
  | @cons before after x u l hrest ih =>
    obtain ⟨before', w, after', rfl, hbefore, hw, hafter⟩ := exists_split_of_forall₂ hbegins
    obtain ⟨rest, rfl⟩ := hw
    obtain ⟨l', hl', hle⟩ :=
      ih (forall₂_split hbefore (List.prefix_append u rest) hafter)
    exact ⟨x :: l', .cons hl', List.cons_prefix_cons.2 ⟨rfl, hle⟩⟩

end

/-! ## Words of processes -/

namespace Process

/-- A word of a process: what it may log until it is done, or, if the word is not to be whole, until
it stops anywhere. -/
inductive Logs : Bool → Process → List (String × String) → Prop where
  | done {whole : Bool} {context : Context} : Logs whole (.done context) []
  | cut {p : Process} : Logs false p []
  | visit {whole : Bool} {id type : String} {next : Unit → Process} {l : List (String × String)}
      (hnext : Logs whole (next ()) l) : Logs whole (.visit id type next) ((id, type) :: l)
  | warn {whole : Bool} {words : String} {next : Unit → Process} {l : List (String × String)}
      (hnext : Logs whole (next ()) l) : Logs whole (.warn words next) l
  | store {whole : Bool} {request : StoreRequest} {next : Value → Process} {v : Value}
      {l : List (String × String)} (hnext : Logs whole (next v) l) :
      Logs whole (.store request next) l
  | call {whole : Bool} {request : CallRequest} {next : CallAnswer → Process} {a : CallAnswer}
      {l : List (String × String)} (hnext : Logs whole (next a) l) :
      Logs whole (.call request next) l
  | sleep {whole : Bool} {seconds : Binary64} {next : Unit → Process} {l : List (String × String)}
      (hnext : Logs whole (next ()) l) : Logs whole (.sleep seconds next) l
  | fork {whole : Bool} {ps : List Process} {next : Unit → Process}
      {ws : List (List (String × String))} {l l' : List (String × String)}
      (hps : List.Forall₂ (Logs true) ps ws) (hl : Interleaving ws l)
      (hnext : Logs whole (next ()) l') : Logs whole (.fork ps next) (l ++ l')
  /-- Nothing follows a fork that is left before all branches are done. -/
  | torn {ps : List Process} {next : Unit → Process} {ws : List (List (String × String))}
      {l : List (String × String)} (hps : List.Forall₂ (Logs false) ps ws)
      (hl : Interleaving ws l) : Logs false (.fork ps next) l

section
variable {env : Surroundings} {transport : Transport} {whole : Bool} {l : List (String × String)}

theorem logs_nothing {ps : List Process} (h : ∀ p ∈ ps, Logs whole p []) :
    List.Forall₂ (Logs whole) ps (ps.map fun _ => []) := by
  rw [List.forall₂_map_right_iff]
  exact List.forall₂_same.2 h

/-- The branches of a fork have words if the branches have them into which one has moved. -/
theorem logs_branch {before after : List Process} {p p' : Process}
    {ws : List (List (String × String))} {t : List (String × String)}
    (hps : List.Forall₂ (Logs whole) (before ++ p' :: after) ws) (hl : Interleaving ws l)
    (hp : ∀ u, Logs whole p' u → Logs whole p (t ++ u)) :
    ∃ ws', List.Forall₂ (Logs whole) (before ++ p :: after) ws' ∧ Interleaving ws' (t ++ l) := by
  obtain ⟨before', u, after', rfl, hbefore, hu, hafter⟩ := exists_split_of_forall₂ hps
  exact ⟨_, forall₂_split hbefore (hp u hu) hafter, hl.prepend t⟩

/-- What a process is doing that has failed or is done. -/
theorem Logs.of_fail {f : Fault} (h : Logs whole (.fail f) l) : whole = false ∧ l = [] := by
  cases h with
  | cut => exact ⟨rfl, rfl⟩

theorem Logs.of_done {context : Context} (h : Logs whole (.done context) l) : l = [] := by
  cases h <;> rfl

/-- **A step logs the beginning of a word**, of which the rest is a word of what is left. -/
theorem Moves.logs {x y : World × Process} (h : Moves env transport x y) :
    ∃ t, y.1.log = x.1.log ++ t ∧ ∀ whole u, Logs whole y.2 u → Logs whole x.2 (t ++ u) := by
  -- By induction on the step, for the branches of a fork. All steps but visits log nothing.
  induction h with
  | @visit id type next w => exact ⟨[(id, type)], w.log_enter env id type, fun _ _ hu => .visit hu⟩
  | @branch before after p p' next w w' _ ih =>
    obtain ⟨t, ht, hp⟩ := ih
    refine ⟨t, ht, fun whole u hu => ?_⟩
    cases hu with
    | cut =>
      -- Nothing more is logged. What has been is that of the one branch, in front of nothing.
      obtain ⟨ws', hws', hl'⟩ := logs_branch (logs_nothing fun _ _ => .cut) (.nothing _) (hp false)
      exact .torn hws' hl'
    | @fork _ _ _ ws l l' hps hl hnext =>
      obtain ⟨ws', hws', hl'⟩ := logs_branch hps hl (hp true)
      rw [← List.append_assoc]
      exact .fork hws' hl' hnext
    | torn hps hl =>
      obtain ⟨ws', hws', hl'⟩ := logs_branch hps hl (hp false)
      exact .torn hws' hl'
  | @join branches next w hdone =>
    refine ⟨[], (List.append_nil _).symm, fun whole u hu => ?_⟩
    have hbranches : ∀ b ∈ branches, Logs true b [] := by
      intro b hb
      obtain ⟨context, rfl⟩ := hdone b hb
      exact .done
    exact .fork (logs_nothing hbranches) (.nothing _) hu
  | refuse =>
    refine ⟨[], (List.append_nil _).symm, fun whole u hu => ?_⟩
    obtain ⟨rfl, rfl⟩ := hu.of_fail
    exact .cut
  | abort =>
    refine ⟨[], (List.append_nil _).symm, fun whole u hu => ?_⟩
    obtain ⟨rfl, rfl⟩ := hu.of_fail
    exact .cut
  | @call request next w =>
    refine ⟨[], (List.append_nil _).symm, fun whole u hu => ?_⟩
    unfold afterCall at hu
    cases houtcome : (transport request).outcome with
    | ok answer =>
      rw [houtcome] at hu
      exact .call hu
    | error f =>
      rw [houtcome] at hu
      obtain ⟨rfl, rfl⟩ := hu.of_fail
      exact .cut
  | warn => exact ⟨[], (List.append_nil _).symm, fun _ _ hu => .warn hu⟩
  | answer => exact ⟨[], (List.append_nil _).symm, fun _ _ hu => .store hu⟩
  | sleep => exact ⟨[], (List.append_nil _).symm, fun _ _ hu => .sleep hu⟩

/-- What a process logs by steps of its own on the way to another one, whatever else happens to the
world between them. -/
inductive Adds (env : Surroundings) (transport : Transport) :
    Process → List (String × String) → Process → Prop where
  | refl {p : Process} : Adds env transport p [] p
  | step {p q r : Process} {l t : List (String × String)} {w w' : World}
      (hadds : Adds env transport p l q) (hmove : Moves env transport (w, q) (w', r))
      (ht : w'.log = w.log ++ t) : Adds env transport p (l ++ t) r

/-- **What a process has logged on the way to another one is the beginning of a word**, of which the
rest is a word of the other. -/
theorem Adds.logs {p q : Process} (h : Adds env transport p l q) :
    ∀ whole u, Logs whole q u → Logs whole p (l ++ u) := by
  induction h with
  | refl => exact fun whole u hu => hu
  | @step q r l t w w' _ hmove ht ih =>
    intro whole u hu
    obtain ⟨t', ht', hword⟩ := hmove.logs
    -- What the log has grown by is what the step logs, in whichever world it is taken.
    obtain rfl := List.append_cancel_left (ht'.symm.trans ht)
    rw [List.append_assoc]
    exact ih whole _ (hword whole u hu)

theorem Adds.logs_cut {p q : Process} (h : Adds env transport p l q) : Logs false p l := by
  rw [← List.append_nil l]
  exact h.logs false [] .cut

theorem Adds.logs_whole {p : Process} {context : Context}
    (h : Adds env transport p l (.done context)) : Logs true p l := by
  rw [← List.append_nil l]
  exact h.logs true [] .done

/-- Where nothing else happens to the world, the log grows by what the process logs. -/
theorem Runs.adds {x y : World × Process} (h : Runs env transport x y) :
    ∃ t, y.1.log = x.1.log ++ t ∧ Adds env transport x.2 t y.2 := by
  induction h with
  | refl => exact ⟨[], (List.append_nil _).symm, .refl⟩
  | tail _ hmove ih =>
    obtain ⟨l, hl, hadds⟩ := ih
    obtain ⟨t, ht, -⟩ := hmove.logs
    exact ⟨l ++ t, by rw [ht, hl, List.append_assoc], .step hadds hmove ht⟩

end

/-! ## Words of processes that are put together -/

namespace Logs

variable {whole : Bool} {p : Process} {l : List (String × String)}

/-- A word of one process and then another is one of the first and then one of the other, unless it
is cut before. -/
theorem of_bind {k : Context → Process} (h : Logs whole (p.bind k) l) :
    (∃ context l₁ l₂, l = l₁ ++ l₂ ∧ Logs true p l₁ ∧ Logs whole (k context) l₂) ∨
      (whole = false ∧ Logs false p l) := by
  -- By induction on the first process. A word that is cut there is a cut word of it, and so is a
  -- fork that is torn.
  induction p generalizing l with
  | done context => exact Or.inl ⟨context, [], l, rfl, .done, h⟩
  | fail f =>
    obtain ⟨rfl, rfl⟩ := of_fail h
    exact Or.inr ⟨rfl, .cut⟩
  | visit id type next ih =>
    cases h with
    | cut => exact Or.inr ⟨rfl, .cut⟩
    | visit hnext =>
      rcases ih () hnext with ⟨context, l₁, l₂, rfl, h₁, h₂⟩ | ⟨rfl, hcut⟩
      · exact Or.inl ⟨context, (id, type) :: l₁, l₂, rfl, .visit h₁, h₂⟩
      · exact Or.inr ⟨rfl, .visit hcut⟩
  | warn words next ih =>
    cases h with
    | cut => exact Or.inr ⟨rfl, .cut⟩
    | warn hnext =>
      rcases ih () hnext with ⟨context, l₁, l₂, rfl, h₁, h₂⟩ | ⟨rfl, hcut⟩
      · exact Or.inl ⟨context, l₁, l₂, rfl, .warn h₁, h₂⟩
      · exact Or.inr ⟨rfl, .warn hcut⟩
  | store request next ih =>
    cases h with
    | cut => exact Or.inr ⟨rfl, .cut⟩
    | store hnext =>
      rcases ih _ hnext with ⟨context, l₁, l₂, rfl, h₁, h₂⟩ | ⟨rfl, hcut⟩
      · exact Or.inl ⟨context, l₁, l₂, rfl, .store h₁, h₂⟩
      · exact Or.inr ⟨rfl, .store hcut⟩
  | call request next ih =>
    cases h with
    | cut => exact Or.inr ⟨rfl, .cut⟩
    | call hnext =>
      rcases ih _ hnext with ⟨context, l₁, l₂, rfl, h₁, h₂⟩ | ⟨rfl, hcut⟩
      · exact Or.inl ⟨context, l₁, l₂, rfl, .call h₁, h₂⟩
      · exact Or.inr ⟨rfl, .call hcut⟩
  | sleep seconds next ih =>
    cases h with
    | cut => exact Or.inr ⟨rfl, .cut⟩
    | sleep hnext =>
      rcases ih () hnext with ⟨context, l₁, l₂, rfl, h₁, h₂⟩ | ⟨rfl, hcut⟩
      · exact Or.inl ⟨context, l₁, l₂, rfl, .sleep h₁, h₂⟩
      · exact Or.inr ⟨rfl, .sleep hcut⟩
  | fork branches next _ ih =>
    cases h with
    | cut => exact Or.inr ⟨rfl, .cut⟩
    | torn hps hl => exact Or.inr ⟨rfl, .torn hps hl⟩
    | @fork _ _ _ ws l l' hps hl hnext =>
      rcases ih () hnext with ⟨context, l₁, l₂, rfl, h₁, h₂⟩ | ⟨rfl, hcut⟩
      · exact Or.inl ⟨context, l ++ l₁, l₂, (List.append_assoc _ _ _).symm, .fork hps hl h₁, h₂⟩
      · exact Or.inr ⟨rfl, .fork hps hl hcut⟩

/-- Warnings are not logged. -/
theorem of_warnAll {words : List String} {q : Unit → Process}
    (h : Logs whole (warnAll words q) l) : Logs whole (q ()) l := by
  induction words with
  | nil => exact h
  | cons w rest ih =>
    cases h with
    | cut => exact .cut
    | warn hnext => exact ih hnext

theorem of_ofExcept {α : Type} {result : Except Fault α} {k : α → Process}
    (h : Logs whole (ofExcept result k) l) :
    (∃ a, result = .ok a ∧ Logs whole (k a) l) ∨ (whole = false ∧ l = []) := by
  cases result with
  | ok a => exact Or.inl ⟨a, rfl, h⟩
  | error f => exact Or.inr h.of_fail

/-- A word of running a node, if one is given, is one of the node. -/
theorem of_runFilled {run : String → Context → Process} {id : Option String} {context : Context}
    (h : Logs whole (runFilled run id context) l) :
    (∃ t, filled id = some t ∧ Logs whole (run t context) l) ∨ (filled id = none ∧ l = []) := by
  unfold runFilled at h
  cases hid : filled id with
  | none =>
    rw [hid] at h
    exact Or.inr ⟨rfl, of_done h⟩
  | some t =>
    rw [hid] at h
    exact Or.inl ⟨t, rfl, h⟩

/-- A word of the turns of a loop is made of words of its body, one for each turn, of which the last
one is cut if the word is. -/
theorem of_turns {itemVariable : Option String} {body : Context → Process} {items : List Value}
    {index : Nat} {context : Context} (h : Logs whole (turns itemVariable body index items context) l) :
    (∃ ws : List (List (String × String)), l = ws.flatten ∧ ws.length = items.length ∧
        ∀ w ∈ ws, ∃ c, Logs true (body c) w) ∨
      ∃ (ws : List (List (String × String))) (l' : List (String × String)) (c : Context),
        whole = false ∧ l = ws.flatten ++ l' ∧ ws.length < items.length ∧
          (∀ w ∈ ws, ∃ c, Logs true (body c) w) ∧ Logs false (body c) l' := by
  -- By induction on the items: each turn ends with a whole word of the body, or the loop with it.
  induction items generalizing index context l with
  | nil => exact Or.inl ⟨[], of_done h, rfl, by simp⟩
  | cons item rest ih =>
    rcases of_bind h with ⟨c, l₁, l₂, rfl, h₁, h₂⟩ | ⟨rfl, hcut⟩
    · have hfirst : ∃ c, Logs true (body c) l₁ := ⟨_, h₁⟩
      rcases ih h₂ with ⟨ws, rfl, hlength, hws⟩ | ⟨ws, l', c', rfl, rfl, hlength, hws, hl'⟩
      · refine Or.inl ⟨l₁ :: ws, rfl, by rw [List.length_cons, List.length_cons, hlength], ?_⟩
        exact List.forall_mem_cons.2 ⟨hfirst, hws⟩
      · refine Or.inr ⟨l₁ :: ws, l', c', rfl, by simp, ?_, ?_, hl'⟩
        · rw [List.length_cons, List.length_cons]
          exact Nat.succ_lt_succ hlength
        · exact List.forall_mem_cons.2 ⟨hfirst, hws⟩
    · exact Or.inr ⟨[], l, _, rfl, rfl, Nat.succ_pos _, by simp, hcut⟩

end Logs

end Process

end Workgraph
