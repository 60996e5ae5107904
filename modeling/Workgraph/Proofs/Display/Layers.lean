import Workgraph.Display.Outline
import Workgraph.Proofs.Graph.Paths
/-!
# The layers of a workflow

A workflow that has been loaded is laid out in layers by depth: a node stands in the layer whose
number is the length of a longest path of references that ends at the node. The nodes of a layer
that follow are put together from those that follow a node of the layer before and no node that has
not been laid out, each at the place of the last node that refers to it (`Links.freed`). So every
node is laid out once, and references lead down (`layers_are_depths`).
-/

namespace Workgraph

namespace Links

variable {links : Links}

/-- The ids before an id are those that lead to it. -/
theorem mem_before_iff (hnames : links.names.Nodup) {a b : String} :
    a ∈ links.before b ↔ links.Leads a b := by
  unfold before Leads after
  rw [List.mem_map]
  constructor
  · rintro ⟨e, he, rfl⟩
    obtain ⟨hmem, hb⟩ := List.mem_filter.1 he
    rw [Entries.get?_of_mem hnames hmem]
    simpa using hb
  · intro hb
    cases hfind : links.get? a with
    | none =>
      rw [hfind] at hb
      cases hb
    | some next =>
      rw [hfind] at hb
      exact ⟨(a, next), List.mem_filter.2 ⟨Entries.mem_of_get? hfind, by simpa using hb⟩, rfl⟩

/-- What the first id of a layer frees stands before what the others free. -/
theorem freed_cons (done : List String) (a : String) (rest : List String) :
    links.freed done (a :: rest) =
      ((links.after a).filter fun child => (links.before child).all (done ++ [a]).contains) ++
        links.freed (done ++ [a]) rest := by
  -- What has been freed so far stays in front while the others of the layer follow.
  have key : ∀ (layer done found : List String),
      (layer.foldl (fun (acc : List String × List String) id =>
        (acc.1 ++ [id], acc.2 ++ (links.after id).filter fun child =>
          (links.before child).all (acc.1 ++ [id]).contains)) (done, found)).2 =
        found ++ links.freed done layer := by
    intro layer
    induction layer with
    | nil => exact fun _ found => (List.append_nil found).symm
    | cons b rest ih =>
      intro done found
      have hempty := ih (done ++ [b])
        ([] ++ (links.after b).filter fun child => (links.before child).all (done ++ [b]).contains)
      unfold freed
      simp only [List.foldl_cons]
      rw [ih, hempty, List.nil_append, List.append_assoc]
  have hfirst := key rest (done ++ [a])
    ([] ++ (links.after a).filter fun child => (links.before child).all (done ++ [a]).contains)
  unfold freed
  simp only [List.foldl_cons]
  rw [hfirst, List.nil_append]
  rfl

section
variable (hnames : links.names.Nodup)
include hnames

/-- An id is freed if it follows an id of the layer and everything that leads to it has been laid
out. -/
theorem mem_freed_iff {layer : List String} {b : String} : ∀ {done : List String},
    b ∈ links.freed done layer ↔
      (∃ a ∈ layer, links.Leads a b) ∧ ∀ a, links.Leads a b → a ∈ done ++ layer := by
  induction layer with
  | nil =>
    intro done
    simp [freed]
  | cons first rest ih =>
    intro done
    have hnow : b ∈ ((links.after first).filter fun child =>
        (links.before child).all (done ++ [first]).contains) ↔
          links.Leads first b ∧ ∀ a, links.Leads a b → a ∈ done ++ [first] := by
      rw [List.mem_filter, List.all_eq_true]
      simp only [mem_before_iff hnames, List.contains_iff_mem]
      rfl
    rw [freed_cons, List.mem_append, hnow, ih]
    constructor
    · rintro (⟨hleads, hall⟩ | ⟨⟨a, ha, hleads⟩, hall⟩)
      · exact ⟨⟨first, List.mem_cons_self, hleads⟩, fun a hab => by
          have hmem := hall a hab
          rw [List.mem_append, List.mem_singleton] at hmem
          rw [List.mem_append, List.mem_cons]
          exact hmem.imp_right .inl⟩
      · exact ⟨⟨a, List.mem_cons_of_mem _ ha, hleads⟩, fun a hab => by
          simpa using hall a hab⟩
    · rintro ⟨⟨a, ha, hleads⟩, hall⟩
      by_cases hlater : ∃ c ∈ rest, links.Leads c b
      · exact .inr ⟨hlater, fun c hcb => by simpa using hall c hcb⟩
      -- Without a later id that leads to it, it is freed by the first one.
      · have hfirst : links.Leads first b := by
          rcases List.mem_cons.1 ha with rfl | ha
          · exact hleads
          · exact absurd ⟨a, ha, hleads⟩ hlater
        refine .inl ⟨hfirst, fun c hcb => ?_⟩
        have hmem := hall c hcb
        rw [List.mem_append, List.mem_cons] at hmem
        rw [List.mem_append, List.mem_singleton]
        exact hmem.imp_right fun hc => hc.resolve_right fun hrest => hlater ⟨c, hrest, hcb⟩

/-- No id is freed twice. -/
theorem nodup_freed (hafter : ∀ a, (links.after a).Nodup) {layer : List String} :
    ∀ {done : List String}, (done ++ layer).Nodup → (links.freed done layer).Nodup := by
  induction layer with
  | nil => exact fun _ => List.nodup_nil
  | cons first rest ih =>
    intro done hnodup
    have hsplit : done ++ first :: rest = (done ++ [first]) ++ rest := by simp
    rw [hsplit] at hnodup
    rw [freed_cons, List.nodup_append]
    refine ⟨(hafter first).filter _, ih hnodup, ?_⟩
    rintro b hnow _ hlater rfl
    -- What leads to it has been laid out, and yet an id that comes later leads to it.
    obtain ⟨⟨a, ha, hleads⟩, -⟩ := (mem_freed_iff hnames).1 hlater
    have hall := (List.mem_filter.1 hnow).2
    rw [List.all_eq_true] at hall
    have hdone := hall a ((mem_before_iff hnames).2 hleads)
    rw [List.contains_iff_mem] at hdone
    exact (List.nodup_append.1 hnodup).2.2 a hdone a ha rfl

end

end Links

namespace Graph

variable {g : Graph}

/-- So many layers have been laid out, and the next one is that of their number. -/
structure Reached (g : Graph) (k : Nat) (done layer : List String) : Prop where
  above : ∀ id, id ∈ done ↔ ∃ n ∈ g.nodes, n.id = id ∧ ∃ j < k, g.IsDepth n j
  next : ∀ id, id ∈ layer ↔ ∃ n ∈ g.nodes, n.id = id ∧ g.IsDepth n k
  distinct : (done ++ layer).Nodup

theorem Sound.leads_iff (h : g.Sound) {a b : String} :
    (Links.ofGraph g).Leads a b ↔ g.Refers a b := by
  rw [leads_ofGraph_iff, and_iff_left_iff_imp]
  rintro ⟨n, hn, -, hb⟩
  exact h.resolved n hn b hb

/-- Before anything is laid out, the next layer has the ids without references to them. -/
theorem Sound.reached_first (h : g.Sound) : g.Reached 0 []
    (((Links.ofGraph g).map (·.1)).filter fun id =>
      ((Links.ofGraph g).before id).isEmpty) where
  above id := by simp
  next id := by
    have hid : id ∈ (Links.ofGraph g).map (·.1) ↔ ∃ n ∈ g.nodes, n.id = id := by
      simp [Links.ofGraph]
    have hempty : ((Links.ofGraph g).before id).isEmpty = true ↔ ∀ a, ¬ g.Refers a id := by
      rw [List.isEmpty_iff, List.eq_nil_iff_forall_not_mem]
      simp only [Links.mem_before_iff (nodup_names_ofGraph g), h.leads_iff]
    rw [List.mem_filter, hid, hempty]
    constructor
    · rintro ⟨⟨n, hn, rfl⟩, hfree⟩
      exact ⟨n, hn, rfl, (h.isDepth_zero_iff hn).2 hfree⟩
    · rintro ⟨n, hn, rfl, hdepth⟩
      exact ⟨⟨n, hn, rfl⟩, (h.isDepth_zero_iff hn).1 hdepth⟩
  distinct := (nodup_names_ofGraph g).filter _

/-- With the next layer everything down to its depth has been laid out. -/
theorem Reached.mem_append_iff {k : Nat} {done layer : List String} (h : g.Reached k done layer)
    (id : String) :
    id ∈ done ++ layer ↔ ∃ n ∈ g.nodes, n.id = id ∧ ∃ j < k + 1, g.IsDepth n j := by
  rw [List.mem_append, h.above, h.next]
  constructor
  · rintro (⟨n, hn, hid, j, hj, hdepth⟩ | ⟨n, hn, hid, hdepth⟩)
    · exact ⟨n, hn, hid, j, hj.trans k.lt_succ_self, hdepth⟩
    · exact ⟨n, hn, hid, k, k.lt_succ_self, hdepth⟩
  · rintro ⟨n, hn, hid, j, hj, hdepth⟩
    rcases Nat.lt_succ_iff_lt_or_eq.1 hj with hj | rfl
    · exact .inl ⟨n, hn, hid, j, hj, hdepth⟩
    · exact .inr ⟨n, hn, hid, hdepth⟩

/-- A layer frees the nodes that are one step deeper. -/
theorem Sound.mem_freed_iff_isDepth (h : g.Sound) {k : Nat} {done layer : List String}
    (hreached : g.Reached k done layer) (id : String) :
    id ∈ (Links.ofGraph g).freed done layer ↔
      ∃ n ∈ g.nodes, n.id = id ∧ g.IsDepth n (k + 1) := by
  rw [Links.mem_freed_iff (nodup_names_ofGraph g)]
  simp only [h.leads_iff]
  constructor
  · rintro ⟨⟨a, ha, hrefers⟩, hall⟩
    obtain ⟨k', hk', hid, htarget⟩ := hrefers
    obtain ⟨m, hm, rfl⟩ := h.resolved k' hk' id htarget
    refine ⟨m, hm, rfl, (h.isDepth_succ_iff hm).2 ⟨?_, ?_⟩⟩
    -- The node of the layer that frees it is a longest way to it.
    · obtain ⟨n, hn, rfl, hdepth⟩ := (hreached.next a).1 ha
      exact ⟨n, hn, ⟨k', hk', hid, htarget⟩, hdepth⟩
    · intro n hn hrefers
      obtain ⟨n', hn', hsame, j, hj, hdepth⟩ :=
        (hreached.mem_append_iff n.id).1 (hall n.id hrefers)
      obtain rfl := List.inj_on_of_nodup_map h.distinct hn' hn hsame
      exact ⟨j, Nat.lt_succ_iff.1 hj, hdepth⟩
  · rintro ⟨m, hm, rfl, hdepth⟩
    obtain ⟨⟨n, hn, hrefers, hlast⟩, hall⟩ := (h.isDepth_succ_iff hm).1 hdepth
    refine ⟨⟨n.id, (hreached.next n.id).2 ⟨n, hn, rfl, hlast⟩, hrefers⟩, ?_⟩
    rintro a ⟨n', hn', rfl, htarget⟩
    obtain ⟨j, hj, hdepth'⟩ := hall n' hn' ⟨n', hn', rfl, htarget⟩
    exact (hreached.mem_append_iff n'.id).2 ⟨n', hn', rfl, j, Nat.lt_succ_iff.2 hj, hdepth'⟩

/-- What has been freed by a layer is the layer that follows. -/
theorem Sound.reached_next (h : g.Sound) {k : Nat} {done layer : List String}
    (hreached : g.Reached k done layer) :
    g.Reached (k + 1) (done ++ layer) ((Links.ofGraph g).freed done layer) := by
  have hfreed := h.mem_freed_iff_isDepth hreached
  refine ⟨hreached.mem_append_iff, hfreed, ?_⟩
  rw [List.nodup_append]
  refine ⟨hreached.distinct, ?_, ?_⟩
  · exact Links.nodup_freed (nodup_names_ofGraph g) (nodup_after_ofGraph g) hreached.distinct
  -- Nothing has two depths, so nothing is laid out that has been laid out before.
  · rintro id hold _ hnew rfl
    obtain ⟨n, hn, hid, j, hj, hdepth⟩ := (hreached.mem_append_iff id).1 hold
    obtain ⟨m, hm, hmid, hdepth'⟩ := (hfreed id).1 hnew
    obtain rfl := List.inj_on_of_nodup_map h.distinct hm hn (hmid.trans hid.symm)
    exact absurd (hdepth.unique hdepth') (by omega)

/-- A node of some depth has a node above it at every smaller depth. -/
theorem Sound.exists_isDepth_above (h : g.Sound) {k : Nat} :
    ∀ (j : Nat) {n : Node}, n ∈ g.nodes → g.IsDepth n (k + j) → ∃ m ∈ g.nodes, g.IsDepth m k
  | 0, n, hn, hdepth => ⟨n, hn, hdepth⟩
  | j + 1, n, hn, hdepth => by
    obtain ⟨⟨m, hm, -, hlast⟩, -⟩ := (h.isDepth_succ_iff hn).1 hdepth
    exact h.exists_isDepth_above j hm hlast

/-- The layers from a layer on are those of the depths from its depth on. -/
theorem Sound.mem_layersFrom_iff (h : g.Sound) (bound : Nat) :
    ∀ {k : Nat} {done layer : List String}, g.Reached k done layer →
      ∀ i < bound, ∀ id, id ∈ ((Links.ofGraph g).layersFrom bound done layer).getD i [] ↔
        ∃ n ∈ g.nodes, n.id = id ∧ g.IsDepth n (k + i) := by
  induction bound with
  | zero => exact fun _ i hi => absurd hi (Nat.not_lt_zero i)
  | succ bound ih =>
    intro k done layer hreached i hi id
    rw [Links.layersFrom]
    split
    · rename_i hempty
      -- Below a depth that no node has there is none either.
      rw [List.isEmpty_iff] at hempty
      simp only [List.getD_nil, List.not_mem_nil, false_iff]
      rintro ⟨n, hn, rfl, hdepth⟩
      obtain ⟨m, hm, hk⟩ := h.exists_isDepth_above i hn hdepth
      have hmem := (hreached.next m.id).2 ⟨m, hm, rfl, hk⟩
      rw [hempty] at hmem
      cases hmem
    · cases i with
      | zero =>
        rw [List.getD_cons_zero]
        exact hreached.next id
      | succ i =>
        rw [List.getD_cons_succ, ih (h.reached_next hreached) i (Nat.lt_of_succ_lt_succ hi) id]
        have hsum : k + 1 + i = k + (i + 1) := by omega
        rw [hsum]

theorem Sound.nodup_flatten_layersFrom (h : g.Sound) (bound : Nat) :
    ∀ {k : Nat} {done layer : List String}, g.Reached k done layer →
      (done ++ ((Links.ofGraph g).layersFrom bound done layer).flatten).Nodup := by
  induction bound with
  | zero =>
    intro k done layer hreached
    simpa [Links.layersFrom] using (List.nodup_append.1 hreached.distinct).1
  | succ bound ih =>
    intro k done layer hreached
    rw [Links.layersFrom]
    split
    · simpa using (List.nodup_append.1 hreached.distinct).1
    · rw [List.flatten_cons, ← List.append_assoc]
      exact ih (h.reached_next hreached)

theorem length_layersFrom_le (links : Links) (bound : Nat) :
    ∀ done layer : List String, (links.layersFrom bound done layer).length ≤ bound := by
  induction bound with
  | zero => exact fun _ _ => le_rfl
  | succ bound ih =>
    intro done layer
    rw [Links.layersFrom]
    split
    · exact Nat.zero_le _
    · exact Nat.succ_le_succ (ih _ _)

theorem mem_flatten_iff_getD {α : Type} {a : α} {layers : List (List α)} :
    a ∈ layers.flatten ↔ ∃ k, a ∈ layers.getD k [] := by
  rw [List.mem_flatten]
  constructor
  · rintro ⟨layer, hlayer, ha⟩
    obtain ⟨k, hk⟩ := List.mem_iff_getElem?.1 hlayer
    exact ⟨k, by rwa [List.getD_eq_getElem?_getD, hk]⟩
  · rintro ⟨k, ha⟩
    rw [List.getD_eq_getElem?_getD] at ha
    cases hk : layers[k]? with
    | none =>
      rw [hk] at ha
      cases ha
    | some layer =>
      rw [hk] at ha
      exact ⟨layer, List.mem_of_getElem? hk, ha⟩

/-- The layers that are built up from the ids without references to them, whether or not they have
all the ids. -/
def builtLayers (g : Graph) : List (List String) :=
  (Links.ofGraph g).layersFrom (Links.ofGraph g).length []
    (((Links.ofGraph g).map (·.1)).filter fun id => ((Links.ofGraph g).before id).isEmpty)

theorem Sound.length_ofGraph (h : g.Sound) : (Links.ofGraph g).length = g.nodes.length := by
  have hids : g.ids.Perm (g.nodes.map Node.id) :=
    (List.perm_ext_iff_of_nodup (nodup_eraseDups _) h.distinct).2 fun id => by simp
  rw [Links.ofGraph, List.length_map, hids.length_eq, List.length_map]

/-- The layers of a sound workflow are those of its depths. -/
theorem Sound.mem_builtLayers_iff (h : g.Sound) (k : Nat) (id : String) :
    id ∈ g.builtLayers.getD k [] ↔ ∃ n ∈ g.nodes, n.id = id ∧ g.IsDepth n k := by
  by_cases hk : k < (Links.ofGraph g).length
  · have hlayer := h.mem_layersFrom_iff _ h.reached_first k hk id
    rwa [Nat.zero_add] at hlayer
  -- No path is as long as the list of nodes.
  · have hshort : g.builtLayers.length ≤ k :=
      (length_layersFrom_le _ _ _ _).trans (not_lt.1 hk)
    rw [List.getD_eq_getElem?_getD, List.getElem?_eq_none hshort]
    simp only [Option.getD_none, List.not_mem_nil, false_iff]
    rintro ⟨n, hn, -, hdepth⟩
    obtain ⟨j, hj, hdepth'⟩ := h.exists_isDepth hn
    rw [hdepth.unique hdepth', h.length_ofGraph] at hk
    exact hk hj

/-- No id of a sound workflow is left out of them or stands in them twice. -/
theorem Sound.flatten_builtLayers (h : g.Sound) :
    g.builtLayers.flatten.Perm (g.nodes.map Node.id) := by
  have hnodup : g.builtLayers.flatten.Nodup := h.nodup_flatten_layersFrom _ h.reached_first
  refine (List.perm_ext_iff_of_nodup hnodup h.distinct).2 fun id => ?_
  rw [mem_flatten_iff_getD, List.mem_map]
  simp only [h.mem_builtLayers_iff]
  constructor
  · rintro ⟨k, n, hn, hid, -⟩
    exact ⟨n, hn, hid⟩
  · rintro ⟨n, hn, hid⟩
    obtain ⟨k, -, hdepth⟩ := h.exists_isDepth hn
    exact ⟨k, n, hn, hid, hdepth⟩

/-- As they have all the ids, they are the layers of the workflow. -/
theorem Sound.layers_eq (h : g.Sound) : g.layers = g.builtLayers := by
  have hfull : g.builtLayers.flatten.length = (Links.ofGraph g).length := by
    rw [h.flatten_builtLayers.length_eq, List.length_map, h.length_ofGraph]
  have hsome : (Links.ofGraph g).layers? = some g.builtLayers := if_pos hfull
  rw [Graph.layers, hsome]
  rfl

/-! ## Shown layers -/

/-- The nodes of a graph as they are shown, layer by layer. -/
def shownLayers (g : Graph) : List (List Node) :=
  g.layers.map fun layer => layer.filterMap g.find?

/-- Nodes that stand in layers by their depth. -/
structure LaidOut (g : Graph) (layers : List (List Node)) : Prop where
  /-- Every node is in one layer, once. -/
  once : layers.flatten.Perm g.nodes
  /-- The number of the layer of a node is its depth. -/
  depth : ∀ n ∈ g.nodes, ∀ k, n ∈ layers.getD k [] ↔ g.IsDepth n k
  /-- References lead to later layers. -/
  down : ∀ n ∈ g.nodes, ∀ r ∈ n.references, ∃ m ∈ g.nodes, g.find? r.target = some m ∧
    ∀ i j, n ∈ layers.getD i [] → m ∈ layers.getD j [] → i < j
  /-- The first layer has the nodes to which no node refers. -/
  top : ∀ n ∈ g.nodes, n ∈ layers.getD 0 [] ↔ ∀ a, ¬ g.Refers a n.id

theorem Sound.mem_filterMap_find?_iff (h : g.Sound) {layer : List String} {n : Node} :
    n ∈ layer.filterMap g.find? ↔ n ∈ g.nodes ∧ n.id ∈ layer := by
  rw [List.mem_filterMap]
  constructor
  · rintro ⟨id, hid, hfind⟩
    obtain ⟨hn, rfl⟩ := exists_of_find?_eq_some hfind
    exact ⟨hn, hid⟩
  · rintro ⟨hn, hid⟩
    exact ⟨n.id, hid, h.find?_id hn⟩

theorem getD_shownLayers (g : Graph) (k : Nat) :
    g.shownLayers.getD k [] = (g.layers.getD k []).filterMap g.find? := by
  rw [shownLayers, List.getD_eq_getElem?_getD, List.getD_eq_getElem?_getD, List.getElem?_map]
  cases g.layers[k]? <;> rfl

theorem Sound.flatten_shownLayers (h : g.Sound) : g.shownLayers.flatten.Perm g.nodes := by
  have hfound : (g.nodes.map Node.id).filterMap g.find? = g.nodes := by
    rw [List.filterMap_map]
    exact (List.filterMap_congr fun n hn => h.find?_id hn).trans List.filterMap_some
  have hperm := h.flatten_builtLayers.filterMap g.find?
  rw [hfound, List.filterMap_flatten, ← h.layers_eq] at hperm
  exact hperm

theorem Sound.laidOut (h : g.Sound) : g.LaidOut g.shownLayers := by
  have hdepth : ∀ n ∈ g.nodes, ∀ k, n ∈ g.shownLayers.getD k [] ↔ g.IsDepth n k := by
    intro n hn k
    rw [getD_shownLayers, h.mem_filterMap_find?_iff, h.layers_eq,
      h.mem_builtLayers_iff]
    constructor
    · rintro ⟨-, m, hm, hid, hdepth⟩
      rwa [List.inj_on_of_nodup_map h.distinct hn hm hid.symm]
    · exact fun hdepth => ⟨hn, n, hn, rfl, hdepth⟩
  refine ⟨h.flatten_shownLayers, hdepth, ?_, ?_⟩
  · intro n hn r hr
    obtain ⟨m, hfind⟩ := find?_isSome (h.resolved n hn r.target (List.mem_map_of_mem hr))
    have hm := (exists_of_find?_eq_some hfind).1
    refine ⟨m, hm, hfind, fun i j hi hj => ?_⟩
    exact ((hdepth n hn i).1 hi).lt_of_reference ((hdepth m hm j).1 hj) hr hfind
  · intro n hn
    rw [hdepth n hn, h.isDepth_zero_iff hn]

/-- Two lines of arrows stand between layers. -/
theorem getElem?_layerLines (layers : List (List String)) :
    ∀ k, (layerLines layers)[3 * k]? = layers[k]?.map (layerGap.intercalate ·) := by
  induction layers with
  | nil => exact fun _ => rfl
  | cons layer rest ih =>
    intro k
    cases k with
    | zero => cases rest <;> rfl
    | succ k =>
      cases rest with
      | nil =>
        have hbehind : 3 * (k + 1) = 3 * k + 2 + 1 := by omega
        rw [hbehind, layerLines, List.getElem?_cons_succ, List.getElem?_cons_succ]
        rfl
      | cons next rest =>
        have hbehind : 3 * (k + 1) = 3 * k + 3 := by omega
        rw [hbehind]
        exact ih k

/-- **A workflow is laid out by depth.** In the text of a workflow that has been loaded every node
stands once, in the layer whose number is the length of a longest path of references that ends at
the node. So references lead down, and the first layer has the nodes to which no node refers. Each
layer is a line of the text, three lines below the one before it. -/
theorem layers_are_depths (v : Value) (g : Graph) (hload : load v = .ok g) :
    g.LaidOut g.shownLayers ∧
      ∀ marks, ∃ lines, g.layerText marks = "\n".intercalate lines ∧
        ∀ k, lines[3 * k]? = g.shownLayers[k]?.map fun layer =>
          layerGap.intercalate (layer.map (Node.shownWith ⟨marks.visits, none⟩)) := by
  refine ⟨(sound_of_load hload).2.laidOut, fun marks => ⟨_, rfl, fun k => ?_⟩⟩
  rw [getElem?_layerLines, shownLayers, List.getElem?_map, List.getElem?_map]
  cases g.layers[k]? <;> rfl

/-- A workflow whose first node refers to a node before and behind another. -/
def shortcutNodes : List Value :=
  [.object [("id", .text "begin"), ("type", .text "parallel"),
      ("config", .object [("paths", .list [.object [("nodeId", .text "last")],
        .object [("nodeId", .text "check")], .object [("nodeId", .text "last")]])])],
    .object [("id", .text "last"), ("type", .text "output")],
    .object [("id", .text "check"), ("type", .text "filter"),
      ("config", .object [("nextNodeId", .text "last")])]]

/-- It has three layers: the last node stands below the other one although the first refers to it
too. -/
theorem shortcutNodes_laidOut : ∃ g, load (.list shortcutNodes) = .ok g ∧
    g.shownLayers.map (·.map Node.id) = [["begin"], ["check"], ["last"]] ∧
    g.LaidOut g.shownLayers := by
  have hany : (load (.list shortcutNodes)).toOption.any
      (fun g => g.shownLayers.map (·.map Node.id) = [["begin"], ["check"], ["last"]]) = true := by
    decide +kernel
  obtain ⟨g, hload, hlayers⟩ := exists_load_of_any hany
  exact ⟨g, hload, of_decide_eq_true hlayers, (layers_are_depths _ g hload).1⟩

end Graph

end Workgraph
