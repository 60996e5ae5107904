import Workgraph.Proofs.Engine.Failure
import Workgraph.Proofs.Engine.Interleaving
/-!
# Runs and their reference

A workflow is separate if the queries in different branches of a parallel node are about different
entities and bring the ids of what they create. However the branches of a separate workflow are
interleaved, a run comes to what the workflow comes to when one thing is done after another. Since
there are no delays in that reference, they cannot change what comes of a run.
-/

namespace Workgraph

/-- Two worlds hold the same records of each entity, in the same order, and have seen as many visits
of each node. -/
structure World.Matches (w w' : World) : Prop where
  records : ∀ entity, w.repository.store.records entity = w'.repository.store.records entity
  visits : ∀ id, w.visits id = w'.visits id

namespace World

variable {w w' w'' : World}

theorem Matches.symm (h : w.Matches w') : w'.Matches w :=
  ⟨fun entity => (h.records entity).symm, fun id => (h.visits id).symm⟩

theorem Matches.trans (h : w.Matches w') (h' : w'.Matches w'') : w.Matches w'' :=
  ⟨fun entity => (h.records entity).trans (h'.records entity),
    fun id => (h.visits id).trans (h'.visits id)⟩

theorem Like.matches (h : w.Like w') : w.Matches w' := by
  refine ⟨fun entity => ?_, fun id => h.tally (some id)⟩
  have hshelf : w.repository.store.shelf entity = w'.repository.store.shelf entity := h.shelf entity
  rw [Store.records_shelf, Store.records_shelf, hshelf]

end World

/-! ## Separate workflows -/

namespace Graph

/-- The query is that of a node to which the id leads. -/
def Asks (g : Graph) (id : String) (q : DatabaseQuery) : Prop :=
  ∃ n ∈ g.nodes, g.Leads id n.id ∧ ∃ next, n.behaviour = .known (.databaseQuery q) next

/-- Some node runs the targets side by side. -/
def Forks (g : Graph) (targets : List String) : Prop :=
  ∃ n ∈ g.nodes, ∃ paths next, n.behaviour = .known (.parallel paths) next ∧
    targets = paths.filterMap filled

/-- The queries in different branches of a parallel node are about different entities, and those that
create something bring its id. -/
structure Separate (g : Graph) : Prop where
  entities : ∀ targets, g.Forks targets → targets.Pairwise fun s t =>
    ∀ q r, g.Asks s q → g.Asks t r → q.entity ≠ r.entity
  ids : ∀ targets, g.Forks targets → ∀ t ∈ targets, ∀ q, g.Asks t q →
    q.operation = some .create → (q.data.getD []).has "id" = true

end Graph

theorem DatabaseQuery.bringsId_of_action {q : DatabaseQuery} {id : String} {action : StoreAction}
    (h : q.action id = .ok action)
    (hid : q.operation = some .create → (q.data.getD []).has "id" = true) :
    action.bringsId = true := by
  cases action with
  | create data =>
    unfold DatabaseQuery.action at h
    split at h
    · cases h
    · cases h
    · rename_i hcreate
      cases h
      exact hid hcreate
    · dsimp only at h
      split at h
      · cases h
      · cases h
      · split_ifs at h <;> cases h
    · dsimp only at h
      split at h
      · cases h
      · cases h
      · split_ifs at h <;> cases h
    · cases h
  | _ => rfl

/-- The query of a node. -/
def Node.query? (n : Node) : Option DatabaseQuery :=
  match n.behaviour with
  | .known (.databaseQuery q) _ => some q
  | _ => none

/-- The branches of a parallel node. -/
def Node.branches? (n : Node) : Option (List String) :=
  match n.behaviour with
  | .known (.parallel paths) _ => some (paths.filterMap filled)
  | _ => none

namespace Graph

variable {g : Graph} {settings : Settings}

/-- What a node asks the store by itself, when an id that has come to it is that of a branch. -/
theorem request_of_requests {t : String} {n : Node} {r : StoreRequest} (hn : n ∈ g.nodes)
    (hleads : g.Leads t n.id) (hids : ∀ q, g.Asks t q → q.operation = some .create →
      (q.data.getD []).has "id" = true) (hr : n.Requests r) :
    (∃ q, g.Asks t q ∧ q.entity = r.entity) ∧ r.action.bringsId = true := by
  obtain ⟨q, next, hbehaviour, hentity, haction⟩ := hr
  have hasks : g.Asks t q := ⟨n, hn, hleads, next, hbehaviour⟩
  refine ⟨⟨q, hasks, hentity.symm⟩, ?_⟩
  rcases haction with haction | hfind
  · exact DatabaseQuery.bringsId_of_action haction (hids q hasks)
  · rw [hfind]
    rfl

/-- A branch of a parallel node asks about the entities of its queries only, and brings the ids of
what it creates. -/
theorem branch_meets_stores (hsound : g.Sound) {t : String} (ht : ∃ n ∈ g.nodes, n.id = t)
    (hids : ∀ q, g.Asks t q → q.operation = some .create → (q.data.getD []).has "id" = true)
    (context : Context) :
    (g.process settings g.depth t context).Meets
      (.stores fun r => (∃ q, g.Asks t q ∧ q.entity = r.entity) ∧ r.action.bringsId = true) [] := by
  refine meets_process hsound ht ?_ (fun _ _ _ _ _ _ _ => True.intro) [] context
  intro n hn hleads seen context _
  apply (n.handler_acts settings context).meets
  · exact fun _ => True.intro
  · exact fun r hr => request_of_requests hn hleads hids hr
  · exact fun _ => True.intro
  · exact fun _ _ => True.intro

theorem exists_of_forks (hsound : g.Sound) {targets : List String} (h : g.Forks targets)
    {t : String} (ht : t ∈ targets) : ∃ n ∈ g.nodes, n.id = t := by
  obtain ⟨n, hn, paths, next, hbehaviour, rfl⟩ := h
  exact hsound.resolved n hn t (Node.mem_targets_of_task hbehaviour (Task.mem_parallel ht))

/-- The branches of a parallel node of a separate workflow are separate. -/
theorem Separate.fork (hsound : g.Sound) (h : g.Separate) {targets : List String}
    (hforks : g.Forks targets) (context : Context) :
    Demand.separate.fork (targets.map fun t => g.process settings g.depth t context) := by
  refine ⟨fun k e => ∃ t, targets[k]? = some t ∧ ∃ q, g.Asks t q ∧ q.entity = e, ?_, ?_⟩
  · intro k b hb
    rw [List.getElem?_map] at hb
    obtain ⟨t, ht, rfl⟩ := Option.map_eq_some_iff.1 hb
    have hmem : t ∈ targets := List.mem_of_getElem? ht
    apply (branch_meets_stores hsound (exists_of_forks hsound hforks hmem)
      (h.ids targets hforks t hmem) context).stores_mono
    exact fun r hr => ⟨⟨t, ht, hr.1⟩, hr.2⟩
  · rintro j k e hjk ⟨s, hs, q, hq, rfl⟩ ⟨t, ht, r, hr, hentity⟩
    obtain ⟨hj, rfl⟩ := List.getElem?_eq_some_iff.1 hs
    obtain ⟨hk, rfl⟩ := List.getElem?_eq_some_iff.1 ht
    have hpairwise := List.pairwise_iff_getElem.1 (h.entities targets hforks)
    -- The condition is about the branches in one order, and holds in the other.
    rcases Nat.lt_or_gt_of_ne hjk with hlt | hgt
    · exact hpairwise j k hj hk hlt q r hq hr hentity.symm
    · exact hpairwise k j hk hj hgt r q hr hq hentity

/-- Branches in which nothing can go wrong are separate, since they ask nothing. -/
theorem separate_of_safe {branches : List Process}
    (h : ∀ b ∈ branches, ∃ seen, b.Meets .safe seen) : Demand.separate.fork branches := by
  refine ⟨fun _ _ => False, fun k b hb => ?_, fun _ _ _ _ hfalse => hfalse.elim⟩
  obtain ⟨seen, hsafe⟩ := h b (List.mem_of_getElem? hb)
  exact hsafe.of_safe fun _ _ => True.intro

/-- **In the processes of a separate workflow the branches of each fork are separate.** -/
theorem Separate.processAll (hsound : g.Sound) (h : g.Separate) {ids : List String}
    (hids : ∀ id ∈ ids, ∃ n ∈ g.nodes, n.id = id) (context : Context) :
    (g.processAll settings g.depth ids context).Meets .separate [] := by
  refine meets_processAll (fun id hid seen context => ?_) [] context
  refine meets_process hsound (hids id hid) ?_ ?_ seen context
  · intro n _ _ seen context _
    apply (n.handler_acts settings context).meets
    · exact fun _ => True.intro
    · exact fun _ _ => True.intro
    · exact fun _ => True.intro
    · exact fun _ hbranches => separate_of_safe hbranches
  · intro n hn _ paths next hbehaviour context
    exact h.fork hsound ⟨n, hn, paths, next, hbehaviour, rfl⟩ context

/-! ### Checking -/

/-- The ids to which an id leads in at most so many steps. -/
def within (g : Graph) : Nat → String → List String
  | 0, id => [id]
  | steps + 1, id => id :: (g.successors id).flatMap (g.within steps)

/-- The references of some ids stay among them. -/
def Closed (g : Graph) (ids : List String) : Prop :=
  ∀ n ∈ g.nodes, n.id ∈ ids → ∀ t ∈ n.targets, t ∈ ids

instance (g : Graph) (ids : List String) : Decidable (g.Closed ids) :=
  inferInstanceAs (Decidable (∀ n ∈ g.nodes, n.id ∈ ids → ∀ t ∈ n.targets, t ∈ ids))

/-- The queries of the nodes to which an id leads. -/
def asked (g : Graph) (id : String) : List DatabaseQuery :=
  (g.nodes.filter fun n => n.id ∈ g.within g.depth id).filterMap Node.query?

/-- That a workflow is separate, as far as it can be seen by following its references. -/
def SeenSeparate (g : Graph) : Prop :=
  ∀ targets ∈ g.nodes.filterMap Node.branches?,
    (targets.Pairwise fun s t => ∀ q ∈ g.asked s, ∀ r ∈ g.asked t, q.entity ≠ r.entity) ∧
    ∀ t ∈ targets, g.Closed (g.within g.depth t) ∧
      ∀ q ∈ g.asked t, q.operation = some .create → (q.data.getD []).has "id" = true

instance (g : Graph) : Decidable g.SeenSeparate :=
  inferInstanceAs (Decidable (∀ targets ∈ g.nodes.filterMap Node.branches?,
    (targets.Pairwise fun s t => ∀ q ∈ g.asked s, ∀ r ∈ g.asked t, q.entity ≠ r.entity) ∧
    ∀ t ∈ targets, g.Closed (g.within g.depth t) ∧
      ∀ q ∈ g.asked t, q.operation = some .create → (q.data.getD []).has "id" = true))

theorem Closed.mem_of_leads {ids : List String} (h : g.Closed ids) {a b : String} (ha : a ∈ ids)
    (hleads : g.Leads a b) : b ∈ ids := by
  induction hleads with
  | refl => exact ha
  | tail _ hstep ih =>
    obtain ⟨n, hn, hid, ht⟩ := hstep
    exact h n hn (hid ▸ ih) _ ht

theorem mem_within (g : Graph) (steps : Nat) (id : String) : id ∈ g.within steps id := by
  cases steps <;> simp [within]

theorem mem_asked {id : String} {q : DatabaseQuery} (hclosed : g.Closed (g.within g.depth id))
    (h : g.Asks id q) : q ∈ g.asked id := by
  obtain ⟨n, hn, hleads, next, hbehaviour⟩ := h
  -- Whether the steps suffice is not known, but what they have reached is closed.
  have hmem : n.id ∈ g.within g.depth id := hclosed.mem_of_leads (g.mem_within _ id) hleads
  refine List.mem_filterMap.2 ⟨n, List.mem_filter.2 ⟨hn, by simpa using hmem⟩, ?_⟩
  simp only [Node.query?, hbehaviour]

/-- A workflow that is seen to be separate is so. -/
theorem SeenSeparate.separate (h : g.SeenSeparate) : g.Separate := by
  have hbranches : ∀ targets, g.Forks targets → targets ∈ g.nodes.filterMap Node.branches? := by
    rintro targets ⟨n, hn, paths, next, hbehaviour, rfl⟩
    refine List.mem_filterMap.2 ⟨n, hn, ?_⟩
    simp only [Node.branches?, hbehaviour]
  constructor
  · intro targets hforks
    obtain ⟨hpairwise, hall⟩ := h targets (hbranches targets hforks)
    refine hpairwise.imp_of_mem ?_
    intro s t hs ht hst q r hq hr
    exact hst q (mem_asked (hall s hs).1 hq) r (mem_asked (hall t ht).1 hr)
  · intro targets hforks t ht q hq
    obtain ⟨-, hall⟩ := h targets (hbranches targets hforks)
    exact (hall t ht).2 q (mem_asked (hall t ht).1 hq)

/-! ### Delays -/

theorem behaviour_undelayed_query {n : Node} {q : DatabaseQuery} {next : Option String} :
    n.undelayed.behaviour = .known (.databaseQuery q) next ↔
      n.behaviour = .known (.databaseQuery q) next := by
  obtain ⟨id, name, behaviour⟩ := n
  cases behaviour with
  | known task next => cases task <;> simp [Node.undelayed, Task.undelayed]
  | unknown type config => exact Iff.rfl

theorem behaviour_undelayed_parallel {n : Node} {paths : List (Option String)}
    {next : Option String} : n.undelayed.behaviour = .known (.parallel paths) next ↔
      n.behaviour = .known (.parallel paths) next := by
  obtain ⟨id, name, behaviour⟩ := n
  cases behaviour with
  | known task next => cases task <;> simp [Node.undelayed, Task.undelayed]
  | unknown type config => exact Iff.rfl

/-- A workflow is separate if it is without its delays. -/
theorem separate_undelayed : g.undelayed.Separate ↔ g.Separate := by
  have hasks : g.undelayed.Asks = g.Asks := by
    funext id q
    simp only [Asks, exists_undelayed, Leads, refers_undelayed_eq, Node.id_undelayed,
      behaviour_undelayed_query]
  have hforks : g.undelayed.Forks = g.Forks := by
    funext targets
    simp only [Forks, exists_undelayed, behaviour_undelayed_parallel]
  constructor
  · rintro ⟨hentities, hids⟩
    rw [hasks, hforks] at hentities hids
    exact ⟨hentities, hids⟩
  · rintro ⟨hentities, hids⟩
    rw [← hasks, ← hforks] at hentities hids
    exact ⟨hentities, hids⟩

end Graph

namespace Engine

/-- What a workflow comes to when one thing is done after another. -/
def sequential (e : Engine) (g : Graph) (initial : Context) (w : World) :
    Except Fault (World × Context) :=
  (g.processAll e.settings g.depth (g.roots.map Node.id) initial).evaluate e.env
    (outcomes e.transport) (firstWorld initial w)

/-- Two engines with a workflow each, between which there is no difference but how long delays and
calls take. -/
structure SameButTimes (e e' : Engine) (g g' : Graph) : Prop where
  env : e'.env = e.env
  settings : e'.settings = e.settings
  outcomes : outcomes e'.transport = outcomes e.transport
  undelayed : g'.undelayed = g.undelayed

variable {e e' : Engine} {g g' : Graph} {initial : Context} {s : Scene}

/-- The reference does not depend on how long anything takes. -/
theorem SameButTimes.sequential (h : SameButTimes e e' g g') (initial : Context) (w : World) :
    e'.sequential g' initial w = e.sequential g initial w := by
  have hroots : g'.roots.map Node.id = g.roots.map Node.id := by
    rw [← Graph.roots_undelayed g', h.undelayed, Graph.roots_undelayed]
  have hdepth : g'.depth = g.depth := by
    rw [← Graph.depth_undelayed g', h.undelayed, Graph.depth_undelayed]
  unfold Engine.sequential
  rw [h.env, h.settings, h.outcomes, hroots, hdepth]
  exact ((Graph.same_processAll_undelayed g' e.settings _ _ initial) _).trans
    (h.undelayed ▸ ((Graph.same_processAll_undelayed g e.settings _ _ initial) _).symm)

/-- A run of a separate workflow comes to what its reference does. -/
theorem comes_to_sequential (hsound : g.Sound) (hseparate : g.Separate) (hclock : s.clock.IsTime) :
    (∃ context w, (e.run g none initial s).result = .completed context ∧
        e.sequential g initial s.world = .ok (w, context) ∧
          (e.run g none initial s).world.Matches w) ∨
      (∃ f, (e.run g none initial s).result = .failed f) ∧
        ∃ f, e.sequential g initial s.world = .error f := by
  have hmeets : (g.processAll e.settings g.depth (g.roots.map Node.id) initial).Meets
      .separate [] :=
    hseparate.processAll hsound (fun id hid => Graph.exists_of_mem_roots hid) initial
  have hclosing : (e.closing g none initial s).isOver = true ∧ _ := ends_closing hsound hclock
  obtain ⟨-, hends⟩ := hclosing
  rw [run_eq]
  generalize e.closing g none initial s = last at hends
  rcases hends with ⟨context, hfinished, hruns⟩ | ⟨f, hfailed, hruns⟩
  -- What the run has come to is done, so it is its own outcome, and the reference has one alike.
  · have halike := hruns.alike hmeets
    simp only [Process.evaluate] at halike
    unfold sequential reportOf
    rw [hfinished]
    generalize Process.evaluate _ _ _ _ = outcome at halike
    cases halike with
    | ends hlike => exact Or.inl ⟨context, _, rfl, rfl, hlike.symm.matches⟩
  · have halike := hruns.alike hmeets
    simp only [Process.evaluate] at halike
    unfold sequential reportOf
    rw [hfailed]
    generalize Process.evaluate _ _ _ _ = outcome at halike
    cases halike with
    | fails => exact Or.inr ⟨⟨_, rfl⟩, _, rfl⟩

/-- A run completes if the reference does, with the same variables. -/
theorem completed_iff (hsound : g.Sound) (hseparate : g.Separate) (hclock : s.clock.IsTime)
    {context : Context} : (e.run g none initial s).result = .completed context ↔
      ∃ w, e.sequential g initial s.world = .ok (w, context) := by
  rcases comes_to_sequential hsound hseparate hclock with
    ⟨other, w, hresult, hw, -⟩ | ⟨⟨f, hresult⟩, f', hf'⟩
  · rw [hresult, hw]
    simp [eq_comm]
  · rw [hresult, hf']
    simp

theorem failed_iff (hsound : g.Sound) (hseparate : g.Separate) (hclock : s.clock.IsTime) :
    (∃ f, (e.run g none initial s).result = .failed f) ↔
      ∃ f, e.sequential g initial s.world = .error f := by
  rcases comes_to_sequential hsound hseparate hclock with
    ⟨other, w, hresult, hw, -⟩ | ⟨⟨f, hresult⟩, f', hf'⟩
  · rw [hresult, hw]
    simp
  · rw [hresult, hf']
    simp

theorem matches_of_sequential (hsound : g.Sound) (hseparate : g.Separate)
    (hclock : s.clock.IsTime) {context : Context} {w : World}
    (h : e.sequential g initial s.world = .ok (w, context)) :
    (e.run g none initial s).world.Matches w := by
  rcases comes_to_sequential hsound hseparate hclock with
    ⟨other, w', -, hw', hmatches⟩ | ⟨-, f, hf⟩
  · rw [hw'] at h
    cases h
    exact hmatches
  · rw [hf] at h
    cases h

end Engine

/-- A parallel node with a branch that creates an order after a while, and one that creates a user. -/
def sideNodes : List Value :=
  [.object [("id", .text "p"), ("type", .text "parallel"),
      ("config", .object [("paths", .list [.object [("nodeId", .text "a")],
        .object [("nodeId", .text "b")]])])],
    .object [("id", .text "a"), ("type", .text "delay"), ("nextNode", .text "c"),
      ("config", .object [("duration", .int 5)])],
    .object [("id", .text "b"), ("type", .text "database_query"),
      ("config", .object [("entityName", .text "users"), ("operation", .text "create"),
        ("data", .object [("id", .text "u1")])])],
    .object [("id", .text "c"), ("type", .text "database_query"),
      ("config", .object [("entityName", .text "orders"), ("operation", .text "create"),
        ("data", .object [("id", .text "o1")])])]]

theorem exists_load_sideNodes : ∃ g, Graph.load (.list sideNodes) = .ok g ∧ g.SeenSeparate ∧
    ∃ w context, Engine.still.sequential g [] Scene.stocked.world = .ok (w, context) := by
  have hany : (Graph.load (.list sideNodes)).toOption.any (fun g => decide g.SeenSeparate &&
      (Engine.still.sequential g [] Scene.stocked.world).toOption.isSome) = true := by
    decide +kernel
  obtain ⟨g, hload, hchecked⟩ := Graph.exists_load_of_any hany
  obtain ⟨hseen, hends⟩ := Bool.and_eq_true_iff.1 hchecked
  refine ⟨g, hload, of_decide_eq_true hseen, ?_⟩
  cases hsequential : Engine.still.sequential g [] Scene.stocked.world with
  | ok r => exact ⟨r.1, r.2, rfl⟩
  | error f =>
    rw [hsequential] at hends
    cases hends

end Workgraph
