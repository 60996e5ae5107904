import Mathlib.Tactic
import Workgraph.Schema.Part
/-!
# What fits

The values that fit a declared type, and what they fit as: a field fits as its value does, and of
texts, dictionaries and lists of dictionaries nothing is changed.
-/

namespace Workgraph

namespace Schema

variable {α β : Type}

namespace Fit

theorem map_eq_fits_iff {f : α → β} {a : Fit α} {b : β} :
    f <$> a = .fits b ↔ ∃ x, a = .fits x ∧ f x = b := by
  cases a <;> simp [Functor.map, Fit.map]

theorem seq_eq_fits_iff {f : Fit (α → β)} {a : Fit α} {b : β} :
    f <*> a = .fits b ↔ ∃ g, f = .fits g ∧ ∃ x, a = .fits x ∧ g x = b := by
  cases f <;> cases a <;> simp [Seq.seq, Fit.both]

theorem within_eq_fits_iff {step : Step} {a : Fit α} {x : α} : a.within step = .fits x ↔ a = .fits x := by
  cases a <;> simp [within]

end Fit

section
variable {fields : Entries Value} {wire : String} {v : Value} (h : fields.get? wire = some v)
include h

theorem fieldOr_eq_fits_iff {missing : Fit α} {other : String} {part : Value → Fit α} {x : α} :
    fieldOr missing wire other part fields = .fits x ↔ part v = .fits x := by
  rw [fieldOr, h]
  exact Fit.within_eq_fits_iff

theorem requiredField_eq_fits_iff {other : String} {part : Value → Fit α} {x : α} :
    requiredField wire other part fields = .fits x ↔ part v = .fits x :=
  fieldOr_eq_fits_iff h

theorem optionalField_eq_fits_iff {default : α} {other : String} {part : Value → Fit α} {x : α} :
    optionalField default wire other part fields = .fits x ↔ part v = .fits x :=
  fieldOr_eq_fits_iff h

theorem nullableField_eq_fits_iff {other : String} {part : Value → Fit α} {x : Option α} :
    nullableField wire other part fields = .fits x ↔ nullable part v = .fits x :=
  fieldOr_eq_fits_iff h

end

theorem entriesOf_any (fields : Entries Value) : entriesOf any fields = .fits fields := by
  induction fields with
  | nil => rfl
  | cons e rest ih =>
    obtain ⟨k, v⟩ := e
    rw [entriesOf, ih]
    rfl

/-- A dictionary of any values is an object. -/
theorem dictionary_any_eq_fits_iff {v : Value} {fields : Entries Value} :
    dictionary any v = .fits fields ↔ v = .object fields := by
  cases v <;> simp [dictionary, Fit.refuse, entriesOf_any]

theorem itemsFrom_dictionaries_eq_fits_iff {items : List Value} {index : Nat}
    {dictionaries : List (Entries Value)} :
    itemsFrom (dictionary any) index items = .fits dictionaries ↔
      items = dictionaries.map Value.object := by
  induction items generalizing index dictionaries with
  | nil =>
    cases dictionaries <;> simp [itemsFrom]
  | cons v rest ih =>
    simp only [itemsFrom, Fit.seq_eq_fits_iff, Fit.map_eq_fits_iff, Fit.within_eq_fits_iff,
      dictionary_any_eq_fits_iff]
    constructor
    · rintro ⟨g, ⟨fields, rfl, rfl⟩, others, hothers, rfl⟩
      rw [ih.1 hothers, List.map_cons]
    · intro h
      cases dictionaries with
      | nil => cases h
      | cons fields others =>
        obtain ⟨rfl, hothers⟩ := List.cons.inj h
        exact ⟨_, ⟨fields, rfl, rfl⟩, others, ih.2 hothers, rfl⟩

/-- A list of dictionaries is a list of objects. -/
theorem list_dictionaries_eq_fits_iff {v : Value} {dictionaries : List (Entries Value)} :
    list (dictionary any) v = .fits dictionaries ↔ v = .list (dictionaries.map Value.object) := by
  cases v <;> simp [list, Fit.refuse, itemsFrom_dictionaries_eq_fits_iff]

/-- Null, or a value that is written from what fits. -/
theorem nullable_eq_fits_iff {part : Value → Fit α} {write : α → Value}
    (hpart : ∀ v x, part v = .fits x ↔ v = write x) (hwrite : ∀ x, write x ≠ .null) {v : Value}
    {x : Option α} : nullable part v = .fits x ↔ v = (x.map write).getD .null := by
  cases v with
  | null =>
    cases x with
    | none => simp [nullable]
    | some x => simp [nullable, (hwrite x).symm]
  | _ =>
    have hmap : ∀ a : Fit α, a.map some = .fits x ↔ ∃ y, a = .fits y ∧ some y = x :=
      fun a => Fit.map_eq_fits_iff
    simp only [nullable, hmap, hpart]
    cases x with
    | none => simp
    | some x => simp

theorem text_eq_fits_iff {v : Value} {s : String} : text v = .fits s ↔ v = .text s := by
  cases v <;> simp [text, Fit.refuse]

end Schema

end Workgraph
