import Workgraph.Proofs.Engine.Failure
import Workgraph.Proofs.Engine.Logs
/-!
# Trace words

What a node may log is the same for every run, whatever the variables, the records and the answers
are: a word of the node (`Graph.Word`). The log of a run that completes is made of a word of each
node that runs at top level, in order, and at any instant before that it is such a word cut short
(`Engine.log_is_word`). Where it is cut inside a parallel node, each branch has come to the
beginning of a word of its own (`Graph.CutBody.parallel`).
-/

namespace Workgraph

/-- The entry of a node in a log. -/
def Node.visit (n : Node) : String × String := (n.id, n.typeName)

/-- Whether what a node does runs no other nodes. -/
def Behaviour.isPlain : Behaviour → Bool
  | .known (.condition ..) _ | .known (.loop ..) _ | .known (.parallel _) _ => false
  | _ => true

namespace Graph

/-! ## Words -/

mutual

/-- A word of the node with an id: its visit, a body word, and a word of the node to go on with. -/
inductive Word (g : Graph) (settings : Settings) : String → List (String × String) → Prop where
  | node {id : String} {n : Node} {body rest : List (String × String)}
      (hfind : g.find? id = some n) (hbody : BodyWord g settings n.behaviour body)
      (hnext : FilledWord g settings n.next rest) :
      Word g settings id (n.visit :: (body ++ rest))

/-- A word of the node that is given, if one is. -/
inductive FilledWord (g : Graph) (settings : Settings) :
    Option String → List (String × String) → Prop where
  | absent {id : Option String} (hid : filled id = none) : FilledWord g settings id []
  | given {id : Option String} {t : String} {w : List (String × String)}
      (hid : filled id = some t) (hw : Word g settings t w) : FilledWord g settings id w

/-- A body word of what a node does: of a condition one of the words of a branch, if any, of a loop
a few words of its body one after another, of a parallel node a word of each branch, interleaved, and
otherwise nothing. -/
inductive BodyWord (g : Graph) (settings : Settings) :
    Behaviour → List (String × String) → Prop where
  | plain {behaviour : Behaviour} (hplain : behaviour.isPlain = true) :
      BodyWord g settings behaviour []
  | stay {conditions : List Condition} {elseNode next : Option String} :
      BodyWord g settings (.known (.condition conditions elseNode) next) []
  | condition {conditions : List Condition} {elseNode next id : Option String}
      {w : List (String × String)} (hid : id ∈ elseNode :: conditions.map Condition.thenNode)
      (hw : FilledWord g settings id w) :
      BodyWord g settings (.known (.condition conditions elseNode) next) w
  | loop {arrayField itemVariable loopNode next : Option String} {maxIterations : Option Int}
      {ws : List (List (String × String))} (hlength : ws.length ≤ loopCap settings maxIterations)
      (hws : ∀ w ∈ ws, FilledWord g settings loopNode w) :
      BodyWord g settings (.known (.loop arrayField itemVariable loopNode maxIterations) next)
        ws.flatten
  | parallel {paths : List (Option String)} {next : Option String}
      {ws : List (List (String × String))} {l : List (String × String)}
      (hws : List.Forall₂ (Word g settings) (paths.filterMap filled) ws)
      (hl : Interleaving ws l) : BodyWord g settings (.known (.parallel paths) next) l

end

mutual

/-- A word of the node with an id, cut short: before the visit, in the body, or in what follows. -/
inductive CutWord (g : Graph) (settings : Settings) : String → List (String × String) → Prop where
  | before {id : String} : CutWord g settings id []
  | body {id : String} {n : Node} {l : List (String × String)} (hfind : g.find? id = some n)
      (hbody : CutBody g settings n.behaviour l) : CutWord g settings id (n.visit :: l)
  | next {id t : String} {n : Node} {body l : List (String × String)}
      (hfind : g.find? id = some n) (hbody : BodyWord g settings n.behaviour body)
      (hnext : filled n.next = some t) (hcut : CutWord g settings t l) :
      CutWord g settings id (n.visit :: (body ++ l))

/-- A body word, cut short. -/
inductive CutBody (g : Graph) (settings : Settings) :
    Behaviour → List (String × String) → Prop where
  | nothing {behaviour : Behaviour} : CutBody g settings behaviour []
  | whole {behaviour : Behaviour} {l : List (String × String)}
      (hbody : BodyWord g settings behaviour l) : CutBody g settings behaviour l
  | condition {conditions : List Condition} {elseNode next id : Option String} {t : String}
      {l : List (String × String)} (hid : id ∈ elseNode :: conditions.map Condition.thenNode)
      (ht : filled id = some t) (hcut : CutWord g settings t l) :
      CutBody g settings (.known (.condition conditions elseNode) next) l
  | loop {arrayField itemVariable loopNode next : Option String} {maxIterations : Option Int}
      {ws : List (List (String × String))} {t : String} {l : List (String × String)}
      (hlength : ws.length < loopCap settings maxIterations)
      (hws : ∀ w ∈ ws, FilledWord g settings loopNode w) (ht : filled loopNode = some t)
      (hcut : CutWord g settings t l) :
      CutBody g settings (.known (.loop arrayField itemVariable loopNode maxIterations) next)
        (ws.flatten ++ l)
  /-- Each branch has come to the beginning of one of its words, and nothing follows. -/
  | parallel {paths : List (Option String)} {next : Option String}
      {ws us : List (List (String × String))} {l : List (String × String)}
      (hws : List.Forall₂ (Word g settings) (paths.filterMap filled) ws)
      (hus : List.Forall₂ (· <+: ·) us ws) (hl : Interleaving us l) :
      CutBody g settings (.known (.parallel paths) next) l

end

/-- A word of each of several nodes, one after another. -/
inductive RunWord (g : Graph) (settings : Settings) :
    List String → List (String × String) → Prop where
  | nil : RunWord g settings [] []
  | cons {id : String} {rest : List String} {w l : List (String × String)}
      (hw : g.Word settings id w) (hl : RunWord g settings rest l) :
      RunWord g settings (id :: rest) (w ++ l)

/-- Words of several nodes, one after another, cut short. -/
inductive CutRun (g : Graph) (settings : Settings) :
    List String → List (String × String) → Prop where
  | nil : CutRun g settings [] []
  | cut {id : String} {rest : List String} {l : List (String × String)}
      (hcut : g.CutWord settings id l) : CutRun g settings (id :: rest) l
  | cons {id : String} {rest : List String} {w l : List (String × String)}
      (hw : g.Word settings id w) (hl : CutRun g settings rest l) :
      CutRun g settings (id :: rest) (w ++ l)

variable {g : Graph} {settings : Settings} {n : Node} {id : String}
  {l : List (String × String)}

/-! ## Every node has words -/

theorem exists_filledWord {id : Option String}
    (h : ∀ t, filled id = some t → ∃ w, g.Word settings t w) :
    ∃ w, g.FilledWord settings id w := by
  cases hid : filled id with
  | none => exact ⟨[], .absent hid⟩
  | some t =>
    obtain ⟨w, hw⟩ := h t hid
    exact ⟨w, .given hid hw⟩

theorem exists_forall₂ {α β : Type} {R : α → β → Prop} {as : List α}
    (h : ∀ a ∈ as, ∃ b, R a b) : ∃ bs, List.Forall₂ R as bs := by
  induction as with
  | nil => exact ⟨[], .nil⟩
  | cons a rest ih =>
    obtain ⟨b, hb⟩ := h a List.mem_cons_self
    obtain ⟨bs, hbs⟩ := ih fun c hc => h c (List.mem_cons_of_mem a hc)
    exact ⟨b :: bs, .cons hb hbs⟩

theorem exists_bodyWord (h : ∀ t ∈ n.targets, ∃ w, g.Word settings t w) :
    ∃ w, g.BodyWord settings n.behaviour w := by
  cases hbehaviour : n.behaviour with
  | unknown type config => exact ⟨[], .plain rfl⟩
  | known task next =>
    cases task with
    | condition conditions elseNode => exact ⟨[], .stay⟩
    | loop arrayField itemVariable loopNode maxIterations =>
      exact ⟨_, @BodyWord.loop g settings _ _ _ _ _ [] (Nat.zero_le _) (by simp)⟩
    | parallel paths =>
      obtain ⟨ws, hws⟩ := exists_forall₂ fun t ht =>
        h t (Node.mem_targets_of_task hbehaviour (Task.mem_parallel ht))
      exact ⟨ws.flatten, .parallel hws (.flatten ws)⟩
    | _ => exact ⟨[], .plain rfl⟩

theorem exists_word (settings : Settings) (hsound : g.Sound) (hid : ∃ n ∈ g.nodes, n.id = id) :
    ∃ w, g.Word settings id w := by
  refine hsound.induction (P := fun id => ∃ w, g.Word settings id w) (fun n hn ih => ?_) hid
  obtain ⟨body, hbody⟩ := exists_bodyWord ih
  obtain ⟨rest, hrest⟩ := exists_filledWord fun t ht => ih t (Node.mem_targets_of_next ht)
  exact ⟨_, .node (hsound.find?_id hn) hbody hrest⟩

theorem exists_runWord (settings : Settings) (hsound : g.Sound) {ids : List String}
    (hids : ∀ id ∈ ids, ∃ n ∈ g.nodes, n.id = id) : ∃ w, g.RunWord settings ids w := by
  induction ids with
  | nil => exact ⟨[], .nil⟩
  | cons id rest ih =>
    obtain ⟨w, hw⟩ := exists_word settings hsound (hids id List.mem_cons_self)
    obtain ⟨l, hl⟩ := ih fun i hi => hids i (List.mem_cons_of_mem id hi)
    exact ⟨w ++ l, .cons hw hl⟩

/-! ## Cut words are beginnings of words -/

/-- A word that is cut inside the body is the beginning of a body word. -/
theorem CutBody.exists_word (hbody : g.CutBody settings n.behaviour l)
    (hwords : ∀ t ∈ n.targets, ∃ w, g.Word settings t w)
    (hcuts : ∀ t ∈ n.targets, ∀ u, g.CutWord settings t u →
      ∃ w, g.Word settings t w ∧ u <+: w) :
    ∃ w, g.BodyWord settings n.behaviour w ∧ l <+: w := by
  generalize hbehaviour : n.behaviour = behaviour at hbody
  cases hbody with
  -- Nothing is the beginning of any body word, and there is one.
  | nothing =>
    obtain ⟨w, hw⟩ := exists_bodyWord hwords
    exact ⟨w, hbehaviour ▸ hw, List.nil_prefix⟩
  | whole hbody => exact ⟨l, hbody, List.prefix_refl l⟩
  | condition hid ht hcut =>
    obtain ⟨w, hw, hle⟩ := hcuts _ (Node.mem_targets_of_task hbehaviour
      (Task.mem_condition hid ht)) _ hcut
    exact ⟨w, .condition hid (.given ht hw), hle⟩
  | @loop arrayField itemVariable loopNode next maxIterations ws t l hlength hws ht hcut =>
    -- The turn that is cut can be completed, and it counts as one more turn.
    obtain ⟨w, hw, hle⟩ := hcuts t (Node.mem_targets_of_task hbehaviour (mem_ofField ht)) l hcut
    have hmore : ∀ u ∈ ws ++ [w], g.FilledWord settings loopNode u := by
      intro u hu
      rcases List.mem_append.1 hu with hu | hu
      · exact hws u hu
      · rw [List.mem_singleton.1 hu]
        exact .given ht hw
    refine ⟨(ws ++ [w]).flatten, .loop ?_ hmore, ?_⟩
    · rw [List.length_append, List.length_singleton]
      exact hlength
    · rw [List.flatten_append, List.flatten_singleton]
      exact List.prefix_append_right_inj ws.flatten |>.2 hle
  | parallel hws hus hl =>
    obtain ⟨w, hw, hle⟩ := hl.complete hus
    exact ⟨w, .parallel hws hw, hle⟩

/-- **A cut word is the beginning of a word.** -/
theorem CutWord.exists_word (hsound : g.Sound) (hid : ∃ n ∈ g.nodes, n.id = id) :
    ∀ l, g.CutWord settings id l → ∃ w, g.Word settings id w ∧ l <+: w := by
  refine hsound.induction (P := fun id => ∀ l, g.CutWord settings id l →
    ∃ w, g.Word settings id w ∧ l <+: w) (fun n hn ih l hcut => ?_) hid
  -- The induction is over the nodes to which the node refers. Where the word is cut before one of
  -- them is reached, any word of that one completes it.
  have hwords : ∀ t ∈ n.targets, ∃ w, g.Word settings t w :=
    fun t ht => Graph.exists_word settings hsound (hsound.resolved n hn t ht)
  have hfind := hsound.find?_id hn
  cases hcut with
  | before =>
    obtain ⟨w, hw⟩ := Graph.exists_word settings hsound ⟨n, hn, rfl⟩
    exact ⟨w, hw, List.nil_prefix⟩
  | body hfind' hbody =>
    rw [hfind] at hfind'
    cases hfind'
    obtain ⟨body, hbody, hle⟩ := hbody.exists_word hwords ih
    obtain ⟨rest, hrest⟩ := exists_filledWord fun t ht => hwords t (Node.mem_targets_of_next ht)
    refine ⟨_, .node hfind hbody hrest, List.cons_prefix_cons.2 ⟨rfl, ?_⟩⟩
    exact hle.trans (List.prefix_append body rest)
  | next hfind' hbody hnext hcut =>
    rw [hfind] at hfind'
    cases hfind'
    obtain ⟨rest, hrest, hle⟩ := ih _ (Node.mem_targets_of_next hnext) _ hcut
    refine ⟨_, .node hfind hbody (.given hnext hrest), List.cons_prefix_cons.2 ⟨rfl, ?_⟩⟩
    exact (List.prefix_append_right_inj _).2 hle

theorem CutRun.exists_word (hsound : g.Sound) {ids : List String}
    (hids : ∀ id ∈ ids, ∃ n ∈ g.nodes, n.id = id) (h : g.CutRun settings ids l) :
    ∃ w, g.RunWord settings ids w ∧ l <+: w := by
  induction h with
  | nil => exact ⟨[], .nil, List.prefix_refl _⟩
  | @cut id rest l hcut =>
    obtain ⟨w, hw, hle⟩ := CutWord.exists_word hsound (hids id List.mem_cons_self) l hcut
    -- What would have followed is a word of the remaining nodes.
    obtain ⟨v, hv⟩ := exists_runWord settings hsound fun i hi =>
      hids i (List.mem_cons_of_mem id hi)
    exact ⟨w ++ v, .cons hw hv, hle.trans (List.prefix_append w v)⟩
  | @cons id rest w l hw _ ih =>
    obtain ⟨v, hv, hle⟩ := ih fun i hi => hids i (List.mem_cons_of_mem id hi)
    exact ⟨w ++ v, .cons hw hv, (List.prefix_append_right_inj w).2 hle⟩

/-! ## Nodes log words -/

section
variable {whole : Bool} {run : String → Context → Process} {context : Context}

/-- What a node does that runs no other nodes is not logged. -/
theorem eq_nil_of_isPlain {behaviour : Behaviour} (hplain : behaviour.isPlain = true)
    (h : (behaviour.process settings run id context).Logs whole l) : l = [] := by
  cases behaviour with
  | unknown type config =>
    cases h with
    | cut => rfl
    | warn hnext => exact hnext.of_done
  | known task next =>
    cases task with
    | trigger => exact h.of_done
    | output => exact h.of_done
    | condition conditions elseNode => cases hplain
    | loop arrayField itemVariable loopNode maxIterations => cases hplain
    | parallel paths => cases hplain
    | apiCall c =>
      rcases h.of_ofExcept with ⟨request, -, hcall⟩ | ⟨-, hnil⟩
      · cases hcall with
        | cut => rfl
        | call hnext => exact hnext.of_done
      · exact hnil
    | databaseQuery q =>
      simp only [Behaviour.process, Task.process, DatabaseQuery.process] at h
      split at h
      · cases h with
        | cut => rfl
        | store hnext => exact hnext.of_done
      · cases h with
        | cut => rfl
        | store hnext =>
          cases hnext with
          | cut => rfl
          | warn hlast => exact hlast.of_done
    | dataTransform source steps result =>
      rcases h.of_ofExcept with ⟨v, -, hdone⟩ | ⟨-, hnil⟩
      · exact hdone.of_done
      · exact hnil
    | filter source conditions result =>
      rcases h.of_ofExcept with ⟨v, -, hdone⟩ | ⟨-, hnil⟩
      · exact hdone.of_done
      · exact hnil
    | delay duration unit =>
      simp only [Behaviour.process, Task.process] at h
      split at h
      · cases h with
        | cut => rfl
        | sleep hnext => exact hnext.of_done
      · exact h.of_done

/-- The branches of a parallel node log words, or beginnings of words. -/
theorem forall₂_branches {targets : List String} {ws : List (List (String × String))}
    {R : String → List (String × String) → Prop}
    (h : List.Forall₂ (Process.Logs whole) (targets.map fun t => run t context) ws)
    (hrun : ∀ t ∈ targets, ∀ w, (run t context).Logs whole w → R t w) :
    List.Forall₂ R targets ws := by
  rw [List.forall₂_map_left_iff] at h
  refine ((List.forall₂_and_left targets ws).2 ⟨fun t ht => ht, h⟩).imp ?_
  rintro t w ⟨ht, hw⟩
  exact hrun t ht w hw

theorem exists_words_of_prefixes {targets : List String} {us : List (List (String × String))}
    (h : List.Forall₂ (fun t u => ∃ w, g.Word settings t w ∧ u <+: w) targets us) :
    ∃ ws, List.Forall₂ (g.Word settings) targets ws ∧ List.Forall₂ (· <+: ·) us ws := by
  induction h with
  | nil => exact ⟨[], .nil, .nil⟩
  | cons hfirst _ ih =>
    obtain ⟨w, hw, hle⟩ := hfirst
    obtain ⟨ws, hws, hus⟩ := ih
    exact ⟨w :: ws, .cons hw hws, .cons hle hus⟩

theorem filledWord_of_logs {id : Option String}
    (hrun : ∀ t, filled id = some t → ∀ w, (run t context).Logs true w → g.Word settings t w)
    (h : (runFilled run id context).Logs true l) : g.FilledWord settings id l := by
  rcases h.of_runFilled with ⟨t, hid, hlogs⟩ | ⟨hid, rfl⟩
  · exact .given hid (hrun t hid l hlogs)
  · exact .absent hid

/-- What a loop logs are words of its body, no more than its cap allows, of which the last one is cut
if the loop is. -/
theorem turns_of_logs {arrayField itemVariable loopNode : Option String}
    {maxIterations : Option Int} (h : (loopProcess settings run id arrayField itemVariable loopNode
      maxIterations context).Logs whole l) :
    (∃ ws : List (List (String × String)), l = ws.flatten ∧
        ws.length ≤ loopCap settings maxIterations ∧
        ∀ w ∈ ws, ∃ c, (runFilled run loopNode c).Logs true w) ∨
      ∃ (ws : List (List (String × String))) (l' : List (String × String)) (c : Context),
        whole = false ∧ l = ws.flatten ++ l' ∧ ws.length < loopCap settings maxIterations ∧
          (∀ w ∈ ws, ∃ c, (runFilled run loopNode c).Logs true w) ∧
          (runFilled run loopNode c).Logs false l' := by
  have hnone : l = [] → ∃ ws : List (List (String × String)), l = ws.flatten ∧
      ws.length ≤ loopCap settings maxIterations ∧
      ∀ w ∈ ws, ∃ c, (runFilled run loopNode c).Logs true w := by
    rintro rfl
    exact ⟨[], rfl, Nat.zero_le _, by simp⟩
  rcases h.of_ofExcept with ⟨v, -, hv⟩ | ⟨-, hnil⟩
  · cases v with
    | list items =>
      -- The items are taken before the first turn, so the body cannot add any.
      have hcap : (items.take (loopCap settings maxIterations)).length ≤
          loopCap settings maxIterations := List.length_take_le _ _
      rcases hv.of_warnAll.of_turns with ⟨ws, rfl, hlength, hws⟩ |
        ⟨ws, l', c, hwhole, rfl, hlength, hws, hl'⟩
      · exact Or.inl ⟨ws, rfl, hlength ▸ hcap, hws⟩
      · exact Or.inr ⟨ws, l', c, hwhole, rfl, Nat.lt_of_lt_of_le hlength hcap, hws, hl'⟩
    | null => exact Or.inl (hnone hv.of_done)
    | _ =>
      -- Anything but a list counts as none, with a warning.
      refine Or.inl (hnone ?_)
      cases hv with
      | cut => rfl
      | warn hnext => exact hnext.of_done
  · exact Or.inl (hnone hnil)

/-- What a parallel node logs is made of what its branches do. If it is cut, they may be. -/
theorem branches_of_logs {paths : List (Option String)}
    (h : ((Task.parallel paths).process settings run id context).Logs whole l) :
    (∃ ws, List.Forall₂ (Process.Logs true)
        ((paths.filterMap filled).map fun t => run t context) ws ∧ Interleaving ws l) ∨
      whole = false ∧ (l = [] ∨ ∃ ws, List.Forall₂ (Process.Logs false)
        ((paths.filterMap filled).map fun t => run t context) ws ∧ Interleaving ws l) := by
  simp only [Task.process] at h
  split at h
  · rename_i hnone
    rw [hnone, h.of_done]
    exact Or.inl ⟨[], .nil, .nil (by simp)⟩
  · cases h with
    | cut => exact Or.inr ⟨rfl, Or.inl rfl⟩
    | torn hps hl => exact Or.inr ⟨rfl, Or.inr ⟨_, hps, hl⟩⟩
    | fork hps hl hnext =>
      rw [hnext.of_done, List.append_nil]
      exact Or.inl ⟨_, hps, hl⟩

theorem exists_of_forall₂_right {α β : Type} {R : α → β → Prop} {as : List α} {bs : List β}
    (h : List.Forall₂ R as bs) {b : β} (hb : b ∈ bs) : ∃ a ∈ as, R a b := by
  induction h with
  | nil => cases hb
  | cons hfirst _ ih =>
    rcases List.mem_cons.1 hb with rfl | hb
    · exact ⟨_, List.mem_cons_self, hfirst⟩
    · obtain ⟨a, ha, hab⟩ := ih hb
      exact ⟨a, List.mem_cons_of_mem _ ha, hab⟩

/-- The nodes to which a node refers log words. -/
def LogWords (g : Graph) (settings : Settings) (run : String → Context → Process) (n : Node) :
    Prop :=
  ∀ t ∈ n.targets, ∀ c w, (run t c).Logs true w → g.Word settings t w

/-- The nodes to which a node refers log cut words, if they are cut. -/
def LogCuts (g : Graph) (settings : Settings) (run : String → Context → Process) (n : Node) :
    Prop :=
  ∀ t ∈ n.targets, ∀ c w, (run t c).Logs false w → g.CutWord settings t w

theorem LogWords.filledWord (hwords : g.LogWords settings run n) {id : Option String}
    (hid : ∀ t, filled id = some t → t ∈ n.targets) {c : Context} {w : List (String × String)}
    (h : (runFilled run id c).Logs true w) : g.FilledWord settings id w :=
  filledWord_of_logs (fun t ht => hwords t (hid t ht) c) h

/-- **What a node does logs a body word**, if the nodes log words that it runs. -/
theorem bodyWord_of_logs (hwords : g.LogWords settings run n)
    (h : (n.behaviour.process settings run n.id context).Logs true l) :
    g.BodyWord settings n.behaviour l := by
  -- One case for each task that runs nodes; all others log nothing.
  generalize hbehaviour : n.behaviour = behaviour at h
  cases behaviour with
  | unknown type config =>
    rw [eq_nil_of_isPlain rfl h]
    exact .plain rfl
  | known task next =>
    have htargets := fun t => @Node.mem_targets_of_task n task next t hbehaviour
    cases task with
    | condition conditions elseNode =>
      rcases h.of_ofExcept with ⟨target, hchoice, hrun⟩ | ⟨hwhole, -⟩
      · have hmem := Condition.choose_mem (eq_ok_of_liftDefect hchoice)
        exact .condition hmem
          (hwords.filledWord (fun t ht => htargets t (Task.mem_condition hmem ht)) hrun)
      · cases hwhole
    | loop arrayField itemVariable loopNode maxIterations =>
      rcases turns_of_logs h with ⟨ws, rfl, hlength, hws⟩ | ⟨ws, l', c, hwhole, -⟩
      · refine .loop hlength fun w hw => ?_
        obtain ⟨c, hc⟩ := hws w hw
        exact hwords.filledWord (fun t ht => htargets t (mem_ofField ht)) hc
      · cases hwhole
    | parallel paths =>
      have hpaths : ((Task.parallel paths).process settings run n.id context).Logs true l := h
      rcases branches_of_logs hpaths with ⟨ws, hws, hl⟩ | ⟨hwhole, -⟩
      · refine .parallel (forall₂_branches hws fun t ht => ?_) hl
        exact hwords t (htargets t (Task.mem_parallel ht)) context
      · cases hwhole
    | _ =>
      rw [eq_nil_of_isPlain rfl h]
      exact .plain rfl

/-- **What a node does that is cut logs a cut body word**, if the nodes log words or cut words that
it runs. -/
theorem cutBody_of_logs (hwords : g.LogWords settings run n) (hcuts : g.LogCuts settings run n)
    (hbegins : ∀ t ∈ n.targets, ∀ u, g.CutWord settings t u →
      ∃ w, g.Word settings t w ∧ u <+: w)
    (h : (n.behaviour.process settings run n.id context).Logs false l) :
    g.CutBody settings n.behaviour l := by
  generalize hbehaviour : n.behaviour = behaviour at h
  cases behaviour with
  | unknown type config =>
    rw [eq_nil_of_isPlain rfl h]
    exact .nothing
  | known task next =>
    have htargets := fun t => @Node.mem_targets_of_task n task next t hbehaviour
    cases task with
    | condition conditions elseNode =>
      rcases h.of_ofExcept with ⟨target, hchoice, hrun⟩ | ⟨-, rfl⟩
      · have hmem := Condition.choose_mem (eq_ok_of_liftDefect hchoice)
        rcases hrun.of_runFilled with ⟨t, ht, hcut⟩ | ⟨-, rfl⟩
        · exact .condition hmem ht (hcuts t (htargets t (Task.mem_condition hmem ht)) _ _ hcut)
        · exact .nothing
      · exact .nothing
    | loop arrayField itemVariable loopNode maxIterations =>
      have hbody : ∀ {ws : List (List (String × String))},
          (∀ w ∈ ws, ∃ c, (runFilled run loopNode c).Logs true w) →
            ∀ w ∈ ws, g.FilledWord settings loopNode w := by
        intro ws hws w hw
        obtain ⟨c, hc⟩ := hws w hw
        exact hwords.filledWord (fun t ht => htargets t (mem_ofField ht)) hc
      rcases turns_of_logs h with ⟨ws, rfl, hlength, hws⟩ |
        ⟨ws, l', c, -, rfl, hlength, hws, hl'⟩
      · exact .whole (.loop hlength (hbody hws))
      · rcases hl'.of_runFilled with ⟨t, ht, hcut⟩ | ⟨-, rfl⟩
        · exact .loop hlength (hbody hws) ht (hcuts t (htargets t (mem_ofField ht)) _ _ hcut)
        · -- A loop without a body is cut between two turns.
          rw [List.append_nil]
          exact .whole (.loop (Nat.le_of_lt hlength) (hbody hws))
    | parallel paths =>
      have htarget : ∀ t ∈ paths.filterMap filled, t ∈ n.targets :=
        fun t ht => htargets t (Task.mem_parallel ht)
      have hpaths : ((Task.parallel paths).process settings run n.id context).Logs false l := h
      rcases branches_of_logs hpaths with ⟨ws, hws, hl⟩ | ⟨-, rfl | ⟨us, hus, hl⟩⟩
      · exact .whole (.parallel (forall₂_branches hws fun t ht => hwords t (htarget t ht) _) hl)
      · exact .nothing
      -- Each branch that is torn logs a beginning of one of its words, which may be all of it.
      · have hcut := forall₂_branches hus fun t ht u hu =>
          hbegins t (htarget t ht) u (hcuts t (htarget t ht) _ u hu)
        obtain ⟨ws, hws, hbegin⟩ := exists_words_of_prefixes hcut
        exact .parallel hws hbegin hl
    | _ =>
      rw [eq_nil_of_isPlain rfl h]
      exact .nothing

end

/-- **A node logs words**, and cut words if it is cut. -/
theorem words_of_logs (settings : Settings) (hsound : g.Sound) (hid : ∃ n ∈ g.nodes, n.id = id) :
    ∀ context l, ((g.process settings g.depth id context).Logs true l → g.Word settings id l) ∧
      ((g.process settings g.depth id context).Logs false l → g.CutWord settings id l) := by
  refine hsound.induction (P := fun id => ∀ context l,
    ((g.process settings g.depth id context).Logs true l → g.Word settings id l) ∧
      ((g.process settings g.depth id context).Logs false l → g.CutWord settings id l))
    (fun n hn ih context l => ?_) hid
  have hfind := hsound.find?_id hn
  have hwords : g.LogWords settings (g.process settings g.depth) n :=
    fun t ht c w => (ih t ht c w).1
  have hcuts : g.LogCuts settings (g.process settings g.depth) n :=
    fun t ht c w => (ih t ht c w).2
  -- The depth left for the nodes below does not matter, so they are run as this one is.
  rw [process_depth hsound hfind]
  constructor
  · intro h
    cases h with
    | visit hrest =>
      rcases hrest.of_bind with ⟨c, body, rest, rfl, hbody, hnext⟩ | ⟨hwhole, -⟩
      · exact .node hfind (bodyWord_of_logs hwords hbody)
          (hwords.filledWord (fun t ht => Node.mem_targets_of_next ht) hnext)
      · cases hwhole
  · intro h
    cases h with
    | cut => exact .before
    | visit hrest =>
      rcases hrest.of_bind with ⟨c, body, rest, rfl, hbody, hnext⟩ | ⟨-, hbody⟩
      -- The body is whole, so it is the next node that is cut, if there is one.
      · have hbody := bodyWord_of_logs hwords hbody
        rcases hnext.of_runFilled with ⟨t, ht, hcut⟩ | ⟨-, rfl⟩
        · exact .next hfind hbody ht (hcuts t (Node.mem_targets_of_next ht) c rest hcut)
        · rw [List.append_nil]
          exact .body hfind (.whole hbody)
      · refine .body hfind (cutBody_of_logs hwords hcuts (fun t ht u hu => ?_) hbody)
        exact CutWord.exists_word hsound (hsound.resolved n hn t ht) u hu

/-- Several nodes log words one after another. -/
theorem runWord_of_logs (hsound : g.Sound) {ids : List String}
    (hids : ∀ id ∈ ids, ∃ n ∈ g.nodes, n.id = id) {context : Context}
    (h : (g.processAll settings g.depth ids context).Logs true l) : g.RunWord settings ids l := by
  induction ids generalizing context l with
  | nil =>
    rw [h.of_done]
    exact .nil
  | cons id rest ih =>
    rcases h.of_bind with ⟨c, w, l', rfl, hw, hl'⟩ | ⟨hwhole, -⟩
    · refine .cons ((words_of_logs settings hsound (hids id List.mem_cons_self) context w).1 hw) ?_
      exact ih (fun i hi => hids i (List.mem_cons_of_mem id hi)) hl'
    · cases hwhole

theorem cutRun_of_logs (hsound : g.Sound) {ids : List String}
    (hids : ∀ id ∈ ids, ∃ n ∈ g.nodes, n.id = id) {context : Context}
    (h : (g.processAll settings g.depth ids context).Logs false l) : g.CutRun settings ids l := by
  induction ids generalizing context l with
  | nil =>
    rw [h.of_done]
    exact .nil
  | cons id rest ih =>
    have hnode := words_of_logs settings hsound (hids id List.mem_cons_self)
    rcases h.of_bind with ⟨c, w, l', rfl, hw, hl'⟩ | ⟨-, hcut⟩
    · refine .cons ((hnode context w).1 hw) ?_
      exact ih (fun i hi => hids i (List.mem_cons_of_mem id hi)) hl'
    · exact .cut ((hnode context l).2 hcut)

/-! ## Nodes to which no node refers -/

/-- Whether no node refers to an id. -/
def isFree (g : Graph) (id : String) : Bool := !g.referenced.contains id

theorem isFree_of_mem_targets (hn : n ∈ g.nodes) {t : String} (ht : t ∈ n.targets) :
    g.isFree t = false := by
  have hmem : t ∈ g.referenced := List.mem_flatMap.2 ⟨n, hn, ht⟩
  simp [isFree, hmem]

/-- The letters of a body word are those of words of the nodes to which the node refers. -/
theorem BodyWord.exists_mem (h : g.BodyWord settings n.behaviour l) {v : String × String}
    (hv : v ∈ l) : ∃ t ∈ n.targets, ∃ w, g.Word settings t w ∧ v ∈ w := by
  generalize hbehaviour : n.behaviour = behaviour at h
  cases h with
  | plain hplain => cases hv
  | stay => cases hv
  | condition hid hw =>
    cases hw with
    | absent => cases hv
    | given ht hw =>
      exact ⟨_, Node.mem_targets_of_task hbehaviour (Task.mem_condition hid ht), _, hw, hv⟩
  | loop hlength hws =>
    obtain ⟨w, hmem, hvw⟩ := List.mem_flatten.1 hv
    cases hws w hmem with
    | absent => cases hvw
    | given ht hw =>
      exact ⟨_, Node.mem_targets_of_task hbehaviour (mem_ofField ht), w, hw, hvw⟩
  | parallel hws hl =>
    obtain ⟨w, hmem, hvw⟩ := hl.exists_mem hv
    obtain ⟨t, ht, hw⟩ := exists_of_forall₂_right hws hmem
    exact ⟨t, Node.mem_targets_of_task hbehaviour (Task.mem_parallel ht), w, hw, hvw⟩

/-- **After its own visit a node logs only nodes to which a way of references leads from it.** -/
theorem Word.exists_below (hsound : g.Sound) (hn : n ∈ g.nodes) :
    ∀ l, g.Word settings n.id l → ∃ rest, l = n.visit :: rest ∧
      ∀ v ∈ rest, Relation.TransGen g.Refers n.id v.1 := by
  -- By induction on the node: a letter of a word below is the visit of its node, or comes after it.
  have hall : ∀ l, g.Word settings n.id l → ∃ v rest, l = v :: rest ∧ v.1 = n.id ∧
      ∀ u ∈ rest, Relation.TransGen g.Refers n.id u.1 := by
    refine hsound.induction (P := fun id => ∀ l, g.Word settings id l → ∃ v rest, l = v :: rest ∧
      v.1 = id ∧ ∀ u ∈ rest, Relation.TransGen g.Refers id u.1) (fun m hm ih l h => ?_) ⟨n, hn, rfl⟩
    have hbelow : ∀ t ∈ m.targets, ∀ w, g.Word settings t w → ∀ u ∈ w,
        Relation.TransGen g.Refers m.id u.1 := by
      intro t ht w hw u hu
      have hrefers : g.Refers m.id t := ⟨m, hm, rfl, ht⟩
      obtain ⟨v, rest, rfl, rfl, hrest⟩ := ih t ht w hw
      rcases List.mem_cons.1 hu with rfl | hu
      · exact .single hrefers
      · exact .head hrefers (hrest u hu)
    cases h with
    | @node _ m' body rest hfind hbody hnext =>
      rw [hsound.find?_id hm] at hfind
      cases hfind
      refine ⟨m.visit, body ++ rest, rfl, rfl, fun u hu => ?_⟩
      rcases List.mem_append.1 hu with hu | hu
      · obtain ⟨t, ht, w, hw, huw⟩ := hbody.exists_mem hu
        exact hbelow t ht w hw u huw
      · cases hnext with
        | absent => cases hu
        | given hid hw => exact hbelow _ (Node.mem_targets_of_next hid) _ hw u hu
  intro l h
  obtain ⟨v, rest, rfl, -, hrest⟩ := hall l h
  cases h with
  | @node _ n' body after hfind hbody hnext =>
    rw [hsound.find?_id hn] at hfind
    cases hfind
    exact ⟨_, rfl, hrest⟩

/-- After its own visit a node logs only nodes to which others refer. -/
theorem Word.exists_cons (hsound : g.Sound) (hn : n ∈ g.nodes) (h : g.Word settings n.id l) :
    ∃ rest, l = n.visit :: rest ∧ ∀ v ∈ rest, g.isFree v.1 = false := by
  obtain ⟨rest, rfl, hrest⟩ := Word.exists_below hsound hn l h
  refine ⟨rest, rfl, fun v hv => ?_⟩
  obtain ⟨a, -, m, hm, -, hmem⟩ := Relation.TransGen.tail'_iff.1 (hrest v hv)
  exact isFree_of_mem_targets hm hmem

theorem RunWord.filter_isFree (hsound : g.Sound) {ns : List Node} (hns : ns ⊆ g.nodes)
    (h : g.RunWord settings (ns.map Node.id) l) :
    (l.filter fun v => g.isFree v.1) = (ns.filter fun n => g.isFree n.id).map Node.visit := by
  induction ns generalizing l with
  | nil =>
    cases h
    rfl
  | cons n rest ih =>
    obtain ⟨hn, hrest⟩ := List.cons_subset.1 hns
    cases h with
    | cons hw hl =>
      obtain ⟨after, rfl, hafter⟩ := Word.exists_cons hsound hn hw
      have hnone : (after.filter fun v => g.isFree v.1) = [] := by
        rw [List.filter_eq_nil_iff]
        intro v hv
        rw [hafter v hv]
        exact Bool.false_ne_true
      rw [List.filter_append, ih hrest hl, List.filter_cons, List.filter_cons, hnone]
      cases hfree : g.isFree n.id <;> simp [Node.visit, hfree]

/-- The nodes to which no node refers run at top level. -/
theorem filter_roots (hsound : g.Sound) :
    (g.roots.filter fun n => g.isFree n.id) = g.nodes.filter fun n => g.isFree n.id := by
  have hdistinct := hsound.distinct
  unfold roots
  cases hnodes : g.nodes with
  | nil => rfl
  | cons entry rest =>
    rw [hnodes, List.map_cons, List.nodup_cons] at hdistinct
    simp only [List.filter_cons, List.filter_filter]
    have hrest : (rest.filter fun n => g.isFree n.id &&
        (!g.referenced.contains n.id && n.id ≠ entry.id)) =
          rest.filter fun n => g.isFree n.id := by
      apply List.filter_congr
      intro n hn
      have hne : n.id ≠ entry.id := fun heq => hdistinct.1 (heq ▸ List.mem_map_of_mem hn)
      simp [isFree, hne]
    rw [hrest]

end Graph

/-! ## Runs -/

namespace Engine

variable {e : Engine} {g : Graph} {deadline : Option Binary64} {initial : Context} {s : Scene}

theorem log_firstWorld (initial : Context) (w : World) : (firstWorld initial w).log = [] :=
  World.log_foldl_notify _ _

/-- At every instant of a run its log is a cut word of the nodes that run at top level. -/
theorem cutRun_of_reached (hsound : g.Sound) {x : Instant}
    (hx : Instant.Reached e.env e.transport (e.opening g deadline initial s) x) :
    g.CutRun e.settings (g.roots.map Node.id) x.schedule.world.log := by
  obtain ⟨q, -, hruns⟩ := runs_of_reached hx
  obtain ⟨t, ht, hadds⟩ := hruns.adds
  rw [log_firstWorld, List.nil_append] at ht
  rw [ht]
  exact Graph.cutRun_of_logs hsound (fun id hid => Graph.exists_of_mem_roots hid) hadds.logs_cut

/-- The log that a run leaves is the one at its last instant. -/
theorem cutRun_run (hsound : g.Sound) : g.CutRun e.settings (g.roots.map Node.id)
    (e.run g deadline initial s).world.log := by
  have hlast := cutRun_of_reached hsound (reached_closing e g deadline initial s)
  rw [Instant.schedule_before] at hlast
  rw [run_eq, World.log, trace_reportOf]
  exact hlast

/-- **The log of a run is a word of its workflow.** If the run completes, it is made of a word of each
node that runs at top level, one after another. Among its visits those of nodes to which no node
refers are one of each, in the order of the nodes. If the run fails, or its time is over, the log is
such a word cut short, as it is at every instant before. -/
theorem log_is_word {v : Value} (hload : Graph.load v = .ok g) (e : Engine)
    (deadline : Option Binary64) (initial : Context) (s : Scene) :
    (∀ x, Instant.Reached e.env e.transport (e.opening g deadline initial s) x →
      g.CutRun e.settings (g.roots.map Node.id) x.schedule.world.log) ∧
    match (e.run g deadline initial s).result with
    | .completed _ =>
      g.RunWord e.settings (g.roots.map Node.id) (e.run g deadline initial s).world.log ∧
        ((e.run g deadline initial s).world.log.filter fun v => g.isFree v.1) =
          (g.nodes.filter fun n => g.isFree n.id).map Node.visit
    | _ =>
      g.CutRun e.settings (g.roots.map Node.id) (e.run g deadline initial s).world.log ∧
        ∃ w, g.RunWord e.settings (g.roots.map Node.id) w ∧
          (e.run g deadline initial s).world.log <+: w := by
  obtain ⟨-, hsound⟩ := Graph.sound_of_load hload
  have hids : ∀ id ∈ g.roots.map Node.id, ∃ n ∈ g.nodes, n.id = id :=
    fun id hid => Graph.exists_of_mem_roots hid
  have hcut : g.CutRun e.settings (g.roots.map Node.id) (e.run g deadline initial s).world.log :=
    cutRun_run hsound
  refine ⟨fun x hx => cutRun_of_reached hsound hx, ?_⟩
  cases hresult : (e.run g deadline initial s).result with
  | completed context =>
    obtain ⟨t, ht, hadds⟩ := (runs_of_completed hresult).adds
    rw [log_firstWorld, List.nil_append] at ht
    have hrun := Graph.runWord_of_logs hsound hids hadds.logs_whole
    rw [ht]
    exact ⟨hrun, (hrun.filter_isFree hsound fun n hn => Graph.mem_of_mem_roots hn).trans
      (by rw [Graph.filter_roots hsound])⟩
  | failed f => exact ⟨hcut, hcut.exists_word hsound hids⟩
  | timedOut => exact ⟨hcut, hcut.exists_word hsound hids⟩

end Engine

/-- Without their entity a run of these nodes fails, and with it the run completes. -/
theorem exists_run_forkNodes : ∃ g, Graph.load (.list forkNodes) = .ok g ∧
    (∃ f, (Engine.still.run g none [] Scene.empty).result = .failed f) ∧
    ∃ context, (Engine.still.run g none [] Scene.stocked).result = .completed context := by
  have hany : (Graph.load (.list forkNodes)).toOption.any (fun g =>
      (Engine.still.run g none [] Scene.empty).result.fault?.isSome &&
        (Engine.still.run g none [] Scene.stocked).result.final?.isSome) = true := by
    decide +kernel
  obtain ⟨g, hload, hchecked⟩ := Graph.exists_load_of_any hany
  obtain ⟨hfails, hcompletes⟩ := Bool.and_eq_true_iff.1 hchecked
  obtain ⟨f, hf⟩ := Option.isSome_iff_exists.1 hfails
  obtain ⟨context, hcontext⟩ := Option.isSome_iff_exists.1 hcompletes
  exact ⟨g, hload, ⟨f, RunResult.eq_failed hf⟩, context, RunResult.eq_completed hcontext⟩

/-- The log of the run that fails is cut short, and that of the other one is whole. -/
theorem forkNodes_log : ∃ g, Graph.load (.list forkNodes) = .ok g ∧
    g.CutRun Settings.standard (g.roots.map Node.id)
      (Engine.still.run g none [] Scene.empty).world.log ∧
    g.RunWord Settings.standard (g.roots.map Node.id)
      (Engine.still.run g none [] Scene.stocked).world.log := by
  obtain ⟨g, hload, ⟨f, hfailed⟩, context, hcompleted⟩ := exists_run_forkNodes
  have hcut := (Engine.log_is_word hload Engine.still none [] Scene.empty).2
  have hwhole := (Engine.log_is_word hload Engine.still none [] Scene.stocked).2
  rw [hfailed] at hcut
  rw [hcompleted] at hwhole
  exact ⟨g, hload, hcut.1, hwhole.1⟩

end Workgraph
