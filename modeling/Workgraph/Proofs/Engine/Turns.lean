import Workgraph.Proofs.Engine.Words
import Workgraph.Proofs.Value.Walk
/-!
# The turns of a loop

Steps that lead to the end of two processes one after the other lead to the end of the first one
before (`Process.Runs.of_bind`), and so a loop that is done has been through its turns one by one
(`Process.Runs.of_turns`). A turn begins with its number and with its item of the list that was there
before the loop, whatever the turns before it have set, and since references have no cycle the body
is visited once in it. So the loop visits its body once for each item that its cap allows
(`Graph.loop_turns`).
-/

namespace Workgraph

namespace Process

variable {env : Surroundings} {transport : Transport}

/-! ## The end of one process before another -/

/-- A step of one process and then another is a step of the first one, unless it is done. -/
theorem Moves.of_bind {w v : World} {p q : Process} {k : Context → Process}
    (h : Moves env transport (w, p.bind k) (v, q)) :
    (∃ c, p = .done c) ∨ ∃ p', q = p'.bind k ∧ Moves env transport (w, p) (v, p') := by
  cases p with
  | done c => exact Or.inl ⟨c, rfl⟩
  | fail f => cases h
  | visit id type next =>
    cases h with
    | visit => exact Or.inr ⟨_, rfl, .visit⟩
  | warn words next =>
    cases h with
    | warn => exact Or.inr ⟨_, rfl, .warn⟩
  | store request next =>
    cases h with
    | answer hperform => exact Or.inr ⟨_, rfl, .answer hperform⟩
    | @refuse _ _ _ f _ hperform => exact Or.inr ⟨.fail f, rfl, .refuse hperform⟩
  | call request next =>
    cases h with
    | call =>
      refine Or.inr ⟨_, ?_, .call⟩
      cases (transport request).outcome <;> rfl
  | sleep seconds next =>
    cases h with
    | sleep => exact Or.inr ⟨_, rfl, .sleep⟩
  | fork branches next =>
    cases h with
    | @branch before after p p' _ _ _ hbranch =>
      exact Or.inr ⟨.fork (before ++ p' :: after) next, rfl, .branch hbranch⟩
    | join hdone => exact Or.inr ⟨_, rfl, .join hdone⟩
    | @abort _ _ _ f hfailed => exact Or.inr ⟨.fail f, rfl, .abort hfailed⟩

namespace Runs

variable {w w' : World} {final : Context}

/-- **One process and then another are done one after the other.** -/
theorem of_bind {p : Process} {k : Context → Process}
    (h : Runs env transport (w, p.bind k) (w', .done final)) :
    ∃ v c, Runs env transport (w, p) (v, .done c) ∧
      Runs env transport (v, k c) (w', .done final) := by
  generalize hx : (w, p.bind k) = x at h
  induction h using Relation.ReflTransGen.head_induction_on generalizing w p with
  | refl =>
    -- Both are done, and the first one has been so from the beginning.
    obtain ⟨rfl, hdone⟩ := Prod.mk.inj hx
    cases p with
    | done c => exact ⟨w, c, .refl _, by rw [← hdone]; exact .refl _⟩
    | _ => cases hdone
  | @head x z hmove hrest ih =>
    obtain ⟨v, q⟩ := z
    subst hx
    rcases hmove.of_bind with ⟨c, rfl⟩ | ⟨p', rfl, hmove'⟩
    · exact ⟨w, c, .refl _, (Runs.move hmove).trans hrest⟩
    · obtain ⟨v', c, hfirst, hsecond⟩ := ih rfl
      exact ⟨v', c, (Runs.move hmove').trans hfirst, hsecond⟩

theorem of_warnAll {words : List String} {q : Unit → Process}
    (h : Runs env transport (w, warnAll words q) (w', .done final)) :
    Runs env transport (words.foldl (fun v word => v.notify .warning word) w, q ()) (w', .done final) := by
  induction words generalizing w with
  | nil => exact h
  | cons word rest ih =>
    rcases Relation.ReflTransGen.cases_head h with heq | ⟨z, hmove, hrest⟩
    · cases heq
    · cases hmove with
      | warn => exact ih hrest

theorem of_ofExcept {α : Type} {result : Except Fault α} {k : α → Process}
    (h : Runs env transport (w, ofExcept result k) (w', .done final)) :
    ∃ a, result = .ok a ∧ Runs env transport (w, k a) (w', .done final) := by
  cases result with
  | ok a => exact ⟨a, rfl, h⟩
  | error f => cases h.of_fail

/-- **The turns of a loop that is done have been done one by one**, each with the variables that the
one before left. -/
theorem of_turns {itemVariable : Option String} {body : Context → Process} {items : List Value} :
    ∀ {index : Nat} {w : World} {context : Context},
      Runs env transport (w, turns itemVariable body index items context) (w', .done final) →
      ∃ stage : Nat → World × Context, stage 0 = (w, context) ∧ stage items.length = (w', final) ∧
        ∀ i, (hi : i < items.length) → Runs env transport
          ((stage i).1, body (turnContext itemVariable (index + i) items[i] (stage i).2))
          ((stage (i + 1)).1, .done (stage (i + 1)).2) := by
  induction items with
  | nil =>
    intro index w context h
    cases h.eq_of_done
    exact ⟨fun _ => _, rfl, rfl, fun i hi => absurd hi (Nat.not_lt_zero i)⟩
  | cons item rest ih =>
    intro index w context h
    obtain ⟨v, c, hfirst, hothers⟩ := of_bind h
    obtain ⟨stage, hstart, hend, hturns⟩ := ih hothers
    refine ⟨fun i => i.casesOn (w, context) stage, rfl, hend, fun i hi => ?_⟩
    cases i with
    | zero =>
      simp only [hstart]
      exact hfirst
    | succ i =>
      have hturn := hturns i (Nat.lt_of_succ_lt_succ hi)
      rw [Nat.add_assoc, Nat.add_comm 1 i] at hturn
      exact hturn

end Runs

end Process

/-! ## Turns -/

/-- What a turn of a loop begins with: its number, its item, and otherwise what was there. -/
structure BeginsTurn (itemVariable : Option String) (index : Nat) (item : Value)
    (before entry : Context) : Prop where
  number : entry.get? loopIndexKey = some (.int index)
  item : ∀ name, filled itemVariable = some name → entry.get? name = some item
  others : ∀ key, key ≠ loopIndexKey → filled itemVariable ≠ some key →
    entry.get? key = before.get? key

theorem beginsTurn_turnContext {itemVariable : Option String}
    (hname : filled itemVariable ≠ some loopIndexKey) (index : Nat) (item : Value)
    (context : Context) :
    BeginsTurn itemVariable index item context (turnContext itemVariable index item context) := by
  unfold turnContext
  cases hfilled : filled itemVariable with
  | none =>
    refine ⟨Entries.get?_set_self _ _ _, by simp [hfilled], fun key hkey _ => ?_⟩
    exact Entries.get?_set_of_ne hkey _ _
  | some name =>
    -- The item is set after the number, so it matters that they have different names.
    have hne : loopIndexKey ≠ name := fun heq => hname (by rw [hfilled, heq])
    refine ⟨?_, ?_, fun key hkey hother => ?_⟩
    · rw [Entries.get?_set_of_ne hne, Entries.get?_set_self]
    · intro name' hname'
      rw [hfilled] at hname'
      cases hname'
      exact Entries.get?_set_self _ _ _
    · have hother' : key ≠ name := fun heq => hother (by rw [hfilled, heq])
      rw [Entries.get?_set_of_ne hother', Entries.get?_set_of_ne hkey]

/-- A turn of a loop from a world with some variables to another: it begins as the turn with its
number and its item, and runs the body, which it visits once. -/
def Graph.Turn (g : Graph) (settings : Settings) (env : Surroundings) (transport : Transport)
    (itemVariable : Option String) (body : String) (index : Nat) (item : Value)
    (x y : World × Context) : Prop :=
  ∃ entry type rest, BeginsTurn itemVariable index item x.2 entry ∧
    Process.Runs env transport (x.1, g.process settings g.depth body entry) (y.1, .done y.2) ∧
    y.1.log = x.1.log ++ (body, type) :: rest ∧ ∀ v ∈ rest, v.1 ≠ body

namespace Graph

variable {g : Graph} {settings : Settings} {env : Surroundings} {transport : Transport}
  {itemVariable : Option String} {body : String}

/-- **A node that has been run is visited first, and then no more.** -/
theorem visited_once (hsound : g.Sound) (hbody : ∃ n ∈ g.nodes, n.id = body) {w w' : World}
    {entry final : Context} (hrun : Process.Runs env transport
      (w, g.process settings g.depth body entry) (w', .done final)) :
    ∃ type rest, w'.log = w.log ++ (body, type) :: rest ∧ ∀ v ∈ rest, v.1 ≠ body := by
  obtain ⟨l, hl, hadds⟩ := hrun.adds
  have hword := (words_of_logs settings hsound hbody entry l).1 hadds.logs_whole
  obtain ⟨n, hn, rfl⟩ := hbody
  obtain ⟨rest, rfl, hrest⟩ := Word.exists_below hsound hn l hword
  refine ⟨n.typeName, rest, hl, fun v hv heq => ?_⟩
  -- A second visit would be on a way of references from the node to itself.
  have hcycle := hrest v hv
  rw [heq] at hcycle
  exact hsound.acyclic n.id hcycle

/-- Turns one after another visit the body once each. -/
theorem count_of_turns {items : List Value} {stage : Nat → World × Context} (n : Nat)
    (hn : n ≤ items.length) (hturns : ∀ i, (hi : i < n) → g.Turn settings env transport
      itemVariable body i items[i] (stage i) (stage (i + 1))) :
    ∃ log, (stage n).1.log = (stage 0).1.log ++ log ∧ (log.filter fun v => v.1 = body).length = n := by
  induction n with
  | zero => exact ⟨[], (List.append_nil _).symm, rfl⟩
  | succ n ih =>
    obtain ⟨log, hlog, hcount⟩ :=
      ih (Nat.le_of_succ_le hn) fun i hi => hturns i (Nat.lt_succ_of_lt hi)
    obtain ⟨entry, type, rest, -, -, hturn, hrest⟩ := hturns n (Nat.lt_succ_self n)
    refine ⟨log ++ (body, type) :: rest, by rw [hturn, hlog, List.append_assoc], ?_⟩
    have hnone : (rest.filter fun v => v.1 = body) = [] :=
      List.filter_eq_nil_iff.2 fun v hv => by simpa using hrest v hv
    rw [List.filter_append, List.length_append, hcount, List.filter_cons_of_pos (by simp), hnone]
    rfl

/-- **A loop visits its body once for each item of its list that its cap allows.** Where the handler
of a loop node is done that has begun with a list, there is a turn for each of the first items, and
nothing else: the first one begins with the variables of the handler, each other one with those that
the one before left, and the handler ends with those of the last one. Each begins with its number
and with its item of the list at the start, whatever has become of the three variables since. -/
theorem loop_turns {v : Value} (hload : load v = .ok g) {n : Node} (hn : n ∈ g.nodes)
    {arrayField loopNode next : Option String} {maxIterations : Option Int}
    (hbehaviour : n.behaviour = .known (.loop arrayField itemVariable loopNode maxIterations) next)
    (hbody : filled loopNode = some body) (hname : filled itemVariable ≠ some loopIndexKey)
    {context final : Context} {items : List Value}
    (hitems : variableAt context arrayField = .ok (.list items)) {w w' : World}
    (hrun : Process.Runs env transport
      (w, n.behaviour.process settings (g.process settings g.depth) n.id context)
      (w', .done final)) :
    ∃ stage : Nat → World × Context,
      (stage 0).1.log = w.log ∧ (stage 0).2 = context ∧
      stage (min items.length (loopCap settings maxIterations)) = (w', final) ∧
      (∀ i, (hi : i < items.length) → i < loopCap settings maxIterations →
        g.Turn settings env transport itemVariable body i items[i] (stage i) (stage (i + 1))) ∧
      ∃ log, w'.log = w.log ++ log ∧
        (log.filter fun v => v.1 = body).length =
          min items.length (loopCap settings maxIterations) := by
  obtain ⟨-, hsound⟩ := sound_of_load hload
  have hexists : ∃ m ∈ g.nodes, m.id = body := by
    refine hsound.resolved n hn body (Node.mem_targets_of_task hbehaviour ?_)
    exact mem_ofField hbody
  rw [hbehaviour] at hrun
  obtain ⟨a, ha, hrun⟩ := Process.Runs.of_ofExcept hrun
  rw [hitems] at ha
  cases ha
  obtain ⟨stage, hstart, hend, hturns⟩ := hrun.of_warnAll.of_turns
  -- Notices are no visits, and the items that the loop takes are the first ones of the list.
  have hlog : (stage 0).1.log = w.log := by
    rw [hstart]
    exact World.log_foldl_notify _ w
  rw [List.length_take, Nat.min_comm] at hend
  have hturn : ∀ i, (hi : i < items.length) → i < loopCap settings maxIterations →
      g.Turn settings env transport itemVariable body i items[i] (stage i) (stage (i + 1)) := by
    intro i hi hcap
    have hbodyRun := hturns i (by rw [List.length_take]; exact Nat.lt_min.2 ⟨hcap, hi⟩)
    rw [List.getElem_take, Nat.zero_add, runFilled, hbody] at hbodyRun
    obtain ⟨type, rest, hvisit, hrest⟩ := visited_once hsound hexists hbodyRun
    exact ⟨_, type, rest, beginsTurn_turnContext hname i items[i] _, hbodyRun, hvisit, hrest⟩
  have hcount := count_of_turns (min items.length (loopCap settings maxIterations))
    (Nat.min_le_left _ _) fun i hi =>
      hturn i (Nat.lt_min.1 hi).1 (Nat.lt_min.1 hi).2
  rw [hend, hlog] at hcount
  exact ⟨stage, hlog, by rw [hstart], hend, hturn, hcount⟩

end Graph

/-! ## A loop whose body sets its variables -/

/-- Whether a process has come to its end with variables that pass a check. -/
def Pause.finishes (check : Context → Bool) : Pause → Bool
  | .ended (.finished context) => check context
  | _ => false

theorem Process.exists_runs_of_finishes {env : Surroundings} {transport : Transport}
    {check : Context → Bool} {p : Process} {w : World}
    (h : (p.advance env transport w).2.finishes check = true) :
    ∃ w' final, Runs env transport (w, p) (w', .done final) ∧ check final = true := by
  obtain ⟨q, hq, hruns⟩ := runs_advance env transport p w
  generalize (p.advance env transport w).2 = pause at h hq
  cases hq with
  | finished => exact ⟨_, _, hruns, h⟩
  | _ => cases h

/-- A loop over a list, and its body, which empties the variables of the list, of the number and of
the item. -/
def spoilingNodes : List Value :=
  [.object [("id", .text "each"), ("type", .text "loop"),
      ("config", .object [("arrayField", .text "items"), ("itemVariableName", .text "item"),
        ("loopNodeId", .text "spoil"), ("maxIterations", .int 2)])],
    .object [("id", .text "spoil"), ("type", .text "filter"),
      ("config", .object [("outputVariable", .text "items"), ("nextNodeId", .text "renumber")])],
    .object [("id", .text "renumber"), ("type", .text "filter"),
      ("config", .object [("outputVariable", .text "__loopIndex"),
        ("nextNodeId", .text "exchange")])],
    .object [("id", .text "exchange"), ("type", .text "filter"),
      ("config", .object [("outputVariable", .text "item")])]]

/-- A list of three items. -/
def threeItems : Context := [("items", .list [.int 7, .int 8, .int 9])]

theorem items_threeItems :
    variableAt threeItems (some "items") = .ok (.list [.int 7, .int 8, .int 9]) := by
  have hroute : Value.route "items" = ["items"] :=
    Value.route_of_not_mem (by decide) (by decide)
  change (Value.object threeItems).lookup "items" = _
  rw [Value.lookup_eq_follow, hroute]
  rfl

/-- The handler of a loop over these items, once it has found them. -/
def eachHandler (g : Graph) (id : String) : Process :=
  .warnAll ["Loop node " ++ id ++ ": " ++ digitsText 3 ++ " items capped at " ++ digitsText 2 ++
      " iterations"] fun _ =>
    turns (some "item") (runFilled (g.process Settings.standard g.depth) (some "spoil")) 0
      [.int 7, .int 8] threeItems

/-- Whether the list of items is empty. -/
def hasNoItems (context : Context) : Bool :=
  match context.get? "items" with
  | some (.list []) => true
  | _ => false

theorem get?_of_hasNoItems {context : Context} (h : hasNoItems context = true) :
    context.get? "items" = some (.list []) := by
  unfold hasNoItems at h
  split at h
  · assumption
  · cases h

/-- Whether a node is the loop of these nodes. -/
def Node.isEach (n : Node) : Bool :=
  match n.behaviour with
  | .known (.loop arrayField itemVariable loopNode maxIterations) _ =>
    decide (arrayField = some "items" ∧ itemVariable = some "item" ∧ loopNode = some "spoil" ∧
      maxIterations = some 2)
  | _ => false

theorem Node.behaviour_of_isEach {n : Node} (h : n.isEach = true) : ∃ next,
    n.behaviour = .known (.loop (some "items") (some "item") (some "spoil") (some 2)) next := by
  unfold isEach at h
  split at h
  · rename_i arrayField itemVariable loopNode maxIterations next hbehaviour
    obtain ⟨rfl, rfl, rfl, rfl⟩ := of_decide_eq_true h
    exact ⟨next, hbehaviour⟩
  · cases h

/-- The body is visited twice, as the cap says. There are no items left in the end, and still the
second visit has the second item. -/
theorem spoilingNodes_turns : ∃ g, Graph.load (.list spoilingNodes) = .ok g ∧
    ∃ n ∈ g.nodes, (∃ next, n.behaviour =
      .known (.loop (some "items") (some "item") (some "spoil") (some 2)) next) ∧
      filled (some "item") ≠ some loopIndexKey ∧
      variableAt threeItems (some "items") = .ok (.list [.int 7, .int 8, .int 9]) ∧
      ∃ w' final, Process.Runs Engine.still.env Engine.still.transport
          (Scene.empty.world, n.behaviour.process Settings.standard
            (g.process Settings.standard g.depth) n.id threeItems) (w', .done final) ∧
        final.get? "items" = some (.list []) ∧
        (∃ log, w'.log = Scene.empty.world.log ++ log ∧
          (log.filter fun v => v.1 = "spoil").length = 2) ∧
        ∃ x y, g.Turn Settings.standard Engine.still.env Engine.still.transport (some "item")
          "spoil" 1 (.int 8) x y := by
  have hany : (Graph.load (.list spoilingNodes)).toOption.any (fun g =>
      match g.nodes with
      | n :: _ => n.isEach && ((eachHandler g n.id).advance Engine.still.env
          Engine.still.transport Scene.empty.world).2.finishes hasNoItems
      | [] => false) = true := by decide +kernel
  obtain ⟨g, hload, hchecked⟩ := Graph.exists_load_of_any hany
  split at hchecked
  · rename_i n others hnodes
    obtain ⟨heach, hfinished⟩ := Bool.and_eq_true_iff.1 hchecked
    obtain ⟨next, hbehaviour⟩ := Node.behaviour_of_isEach heach
    obtain ⟨w', final, hruns, hfinal⟩ := Process.exists_runs_of_finishes hfinished
    have hn : n ∈ g.nodes := by
      rw [hnodes]
      exact List.mem_cons_self
    have hname : filled (some "item") ≠ some loopIndexKey := by decide
    have hhandler : n.behaviour.process Settings.standard (g.process Settings.standard g.depth) n.id
        threeItems = eachHandler g n.id := by
      rw [hbehaviour]
      change loopProcess _ _ _ _ _ _ _ _ = _
      rw [loopProcess, items_threeItems]
      rfl
    rw [← hhandler] at hruns
    obtain ⟨stage, -, -, -, hturns, hcount⟩ :=
      Graph.loop_turns hload hn hbehaviour rfl hname items_threeItems hruns
    exact ⟨g, hload, n, hn, ⟨next, hbehaviour⟩, hname, items_threeItems, w', final, hruns,
      get?_of_hasNoItems hfinal, hcount, _, _, hturns 1 (by decide) (by decide)⟩
  · cases hchecked

end Workgraph
