import Workgraph.Entries
/-!
# Lookups in ordered entries

What a lookup finds in a table that is computed name by name, and in one that has been changed.
-/

namespace Workgraph

namespace Entries

variable {α : Type}

theorem mem_names_of_get? {entries : Entries α} {name : String} {v : α}
    (h : entries.get? name = some v) : name ∈ entries.map Prod.fst := by
  induction entries with
  | nil => simp [get?] at h
  | cons e rest ih =>
    obtain ⟨k, w⟩ := e
    simp only [get?] at h
    split at h
    · rename_i hk
      simp [hk]
    · simp [ih h]

theorem mem_of_get? {entries : Entries α} {name : String} {v : α}
    (h : entries.get? name = some v) : (name, v) ∈ entries := by
  induction entries with
  | nil => cases h
  | cons e rest ih =>
    obtain ⟨k, w⟩ := e
    rw [get?] at h
    split at h
    · rename_i hk
      cases h
      rw [hk]
      exact List.mem_cons_self
    · exact List.mem_cons_of_mem _ (ih h)

/-- The value of an entry, if no other entry has its name. -/
theorem get?_of_mem {entries : Entries α} (h : (entries.map Prod.fst).Nodup) {e : String × α}
    (he : e ∈ entries) : entries.get? e.1 = some e.2 := by
  induction entries with
  | nil => cases he
  | cons first rest ih =>
    obtain ⟨hfirst, hrest⟩ := List.nodup_cons.1 h
    obtain ⟨k, w⟩ := first
    rw [get?]
    rcases List.mem_cons.1 he with rfl | he
    · exact if_pos rfl
    · have hmem : e.1 ∈ rest.map Prod.fst := List.mem_map_of_mem he
      have hne : k ≠ e.1 := fun heq => hfirst (heq ▸ hmem)
      rw [if_neg hne, ih hrest he]

/-- A table that is computed name by name. -/
theorem get?_map (f : String → α) (names : List String) (name : String) :
    get? (names.map fun n => (n, f n)) name = if name ∈ names then some (f name) else none := by
  induction names with
  | nil => simp [get?]
  | cons n rest ih =>
    by_cases hn : n = name
    · subst hn
      simp [get?]
    · have hne : ¬ name = n := fun h => hn h.symm
      simp [get?, hn, hne, ih]

theorem get?_set_self (entries : Entries α) (name : String) (v : α) :
    (entries.set name v).get? name = some v := by
  induction entries with
  | nil => simp [set, get?]
  | cons e rest ih =>
    obtain ⟨k, w⟩ := e
    by_cases hk : k = name
    · simp [set, get?, hk]
    · simp [set, get?, hk, ih]

theorem get?_set_of_ne {name other : String} (h : other ≠ name) (entries : Entries α) (v : α) :
    (entries.set name v).get? other = entries.get? other := by
  induction entries with
  | nil => simp [set, get?, h.symm]
  | cons e rest ih =>
    obtain ⟨k, w⟩ := e
    by_cases hk : k = name
    · subst hk
      simp [set, get?, h.symm]
    · simp only [set, if_neg hk, get?, ih]

/-- What a name had before does not matter once it is set again. -/
theorem merge_cons_of_has {name : String} {other : Entries α} (h : other.has name = true)
    (rest : Entries α) (v w : α) :
    merge ((name, v) :: rest) other = merge ((name, w) :: rest) other := by
  induction other generalizing rest with
  | nil => cases h
  | cons e more ih =>
    obtain ⟨k, x⟩ := e
    unfold merge
    rw [List.foldl_cons, List.foldl_cons]
    by_cases hk : name = k
    · simp [set, hk]
    · have hmore : has more name = true := by
        have hne : ¬ k = name := fun heq => hk heq.symm
        simpa [has, get?, hne] using h
      simp only [set, if_neg hk]
      exact ih hmore (rest.set k x)

/-- A name that no merged entry has keeps its value. -/
theorem get?_merge_of_not_mem {other : Entries α} {name : String}
    (h : name ∉ other.map Prod.fst) (entries : Entries α) :
    (entries.merge other).get? name = entries.get? name := by
  induction other generalizing entries with
  | nil => rfl
  | cons e rest ih =>
    rw [List.map_cons, List.mem_cons, not_or] at h
    calc (entries.merge (e :: rest)).get? name = (entries.set e.1 e.2).get? name := ih h.2 _
      _ = entries.get? name := get?_set_of_ne h.1 entries e.2

/-- A name that a merged entry has gets its value from there. -/
theorem get?_merge_of_mem {other : Entries α} (h : (other.map Prod.fst).Nodup) {name : String} {v : α}
    (hmem : (name, v) ∈ other) (entries : Entries α) :
    (entries.merge other).get? name = some v := by
  induction other generalizing entries with
  | nil => cases hmem
  | cons e rest ih =>
    rw [List.map_cons, List.nodup_cons] at h
    rcases List.mem_cons.1 hmem with rfl | hrest
    · calc (entries.merge ((name, v) :: rest)).get? name = (entries.set name v).get? name :=
            get?_merge_of_not_mem h.1 _
        _ = some v := get?_set_self entries name v
    · exact ih h.2 hrest (entries.set e.1 e.2)

theorem not_mem_without (entries : Entries α) (name : String) :
    name ∉ (entries.without name).map Prod.fst := by
  intro h
  obtain ⟨e, he, hname⟩ := List.mem_map.1 h
  exact of_decide_eq_true (List.mem_filter.1 he).2 hname

/-! ## Names -/

/-- A new name goes to the end. -/
theorem set_of_not_mem {entries : Entries α} {name : String} (h : name ∉ entries.map Prod.fst)
    (v : α) : entries.set name v = entries ++ [(name, v)] := by
  induction entries with
  | nil => rfl
  | cons e rest ih =>
    obtain ⟨k, w⟩ := e
    simp only [List.map_cons, List.mem_cons, not_or] at h
    have hk : k ≠ name := fun heq => h.1 heq.symm
    rw [set, if_neg hk, ih h.2]
    rfl

/-- A name that is there keeps its place. -/
theorem names_set_of_mem {entries : Entries α} {name : String} (h : name ∈ entries.map Prod.fst)
    (v : α) : (entries.set name v).map Prod.fst = entries.map Prod.fst := by
  induction entries with
  | nil => cases h
  | cons e rest ih =>
    obtain ⟨k, w⟩ := e
    by_cases hk : k = name
    · simp [set, hk]
    · rw [List.map_cons, List.mem_cons] at h
      have hrest := ih (h.resolve_left fun heq => hk heq.symm)
      simp [set, hk, hrest]

theorem nodup_set {entries : Entries α} (h : (entries.map Prod.fst).Nodup) (name : String) (v : α) :
    ((entries.set name v).map Prod.fst).Nodup := by
  by_cases hname : name ∈ entries.map Prod.fst
  · rwa [names_set_of_mem hname]
  · rw [set_of_not_mem hname, List.map_append, List.nodup_append]
    refine ⟨h, List.pairwise_singleton _ _, ?_⟩
    intro k hk n hn heq
    rw [List.map_singleton, List.mem_singleton] at hn
    rw [heq, hn] at hk
    exact hname hk

theorem mem_set {entries : Entries α} {name : String} {v : α} {e : String × α}
    (h : e ∈ entries.set name v) : e = (name, v) ∨ e ∈ entries := by
  induction entries with
  | nil => exact .inl (List.mem_singleton.1 h)
  | cons first rest ih =>
    obtain ⟨k, w⟩ := first
    rw [set] at h
    split at h
    · rename_i hk
      rcases List.mem_cons.1 h with heq | hrest
      · exact .inl (heq.trans (by rw [hk]))
      · exact .inr (List.mem_cons_of_mem _ hrest)
    · rcases List.mem_cons.1 h with heq | hrest
      · exact .inr (heq ▸ List.mem_cons_self)
      · exact (ih hrest).imp_right (List.mem_cons_of_mem _)

/-- An entry of a merged table comes from one of the two. -/
theorem mem_merge {other : Entries α} {e : String × α} : ∀ {entries : Entries α},
    e ∈ entries.merge other → e ∈ entries ∨ e ∈ other := by
  induction other with
  | nil => exact .inl
  | cons first rest ih =>
    intro entries h
    rcases ih (show e ∈ (entries.set first.1 first.2).merge rest from h) with hset | hrest
    · rcases mem_set hset with rfl | hold
      · exact .inr List.mem_cons_self
      · exact .inl hold
    · exact .inr (List.mem_cons_of_mem first hrest)

end Entries

end Workgraph
