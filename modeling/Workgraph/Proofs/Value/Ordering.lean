import Mathlib.Data.List.Perm.Subperm
import Workgraph.Proofs.Value.Distinct
import Workgraph.Value.Compare
/-!
# The order behind the comparisons

Equality and order bring the operands of a condition to a common kind by two separate sets of rules.
Both sets agree: two values are equal just if their order is that of equals, and the other way round
the order is the opposite one. So no two of below, equal and above hold at once, and one of them
holds wherever the kinds of the operands compare (`Value.conditions_consistent`).
-/

namespace Workgraph

namespace Binary64

/-- Compared the other way round, two numbers have the opposite order. -/
theorem compare?_swap (x y : Binary64) : (x.compare? y).map Ordering.swap = y.compare? x := by
  cases x with
  | nan => cases y <;> rfl
  | infinite s =>
    cases y with
    | nan => rfl
    | infinite t => cases s <;> cases t <;> rfl
    | finite t v h => cases s <;> rfl
  | finite s u h =>
    cases y with
    | nan => rfl
    | infinite t => cases t <;> rfl
    | finite t v h' => simp only [compare?, Option.map_some, Int.compare_swap]

theorem exists_compare? {x y : Binary64} (hx : x.isNaN = false) (hy : y.isNaN = false) :
    ∃ o, x.compare? y = some o := by
  cases x with
  | nan => cases hx
  | infinite s =>
    cases y with
    | nan => cases hy
    | _ => exact ⟨_, rfl⟩
  | finite s u h =>
    cases y with
    | nan => cases hy
    | _ => exact ⟨_, rfl⟩

theorem exists_compareInt? {x : Binary64} (hx : x.isNaN = false) (n : Int) :
    ∃ o, x.compareInt? n = some o := by
  cases x with
  | nan => cases hx
  | _ => exact ⟨_, rfl⟩

end Binary64

namespace Number

theorem compare?_swap (m n : Number) : (m.compare? n).map Ordering.swap = n.compare? m := by
  cases m with
  | int m =>
    cases n with
    | int n => simp only [compare?, Option.map_some, Int.compare_swap]
    | real y =>
      simp only [compare?, Option.map_map, Function.comp_def, Ordering.swap_swap, Option.map_id']
  | real x =>
    cases n with
    | int n => rfl
    | real y => exact Binary64.compare?_swap x y

theorem sameValue_comm (m n : Number) : m.sameValue n = n.sameValue m := by
  unfold sameValue
  rw [← compare?_swap m n]
  rcases m.compare? n with _ | _ | _ | _ <;> rfl

/-- Whether a number is not a number. -/
def isNaN : Number → Bool
  | .int _ => false
  | .real x => x.isNaN

theorem exists_compare? {m n : Number} (hm : m.isNaN = false) (hn : n.isNaN = false) :
    ∃ o, m.compare? n = some o := by
  cases m with
  | int m =>
    cases n with
    | int n => exact ⟨_, rfl⟩
    | real y =>
      obtain ⟨o, ho⟩ := Binary64.exists_compareInt? hn m
      exact ⟨o.swap, by rw [compare?, ho, Option.map_some]⟩
  | real x =>
    cases n with
    | int n => exact Binary64.exists_compareInt? hm n
    | real y => exact Binary64.exists_compare? hm hn

end Number

namespace Value

/-- Induction over the items of lists and the fields of objects. -/
@[elab_as_elim]
theorem induct {motive : Value → Prop} (null : motive .null) (bool : ∀ b, motive (.bool b))
    (int : ∀ n, motive (.int n)) (real : ∀ x, motive (.real x)) (text : ∀ s, motive (.text s))
    (list : ∀ items, (∀ v ∈ items, motive v) → motive (.list items))
    (object : ∀ fields, (∀ e ∈ fields, motive e.2) → motive (.object fields)) :
    ∀ v, motive v
  | .null => null
  | .bool b => bool b
  | .int n => int n
  | .real x => real x
  | .text s => text s
  | .list items => list items fun v _ => induct null bool int real text list object v
  | .object fields => object fields fun e he =>
    -- An entry is smaller than the list it stands in, and its value is smaller than the entry.
    have hsize : sizeOf e.2 < sizeOf fields := by
      have hmem := List.sizeOf_lt_of_mem he
      rw [Prod.mk.sizeOf_spec] at hmem
      omega
    induct null bool int real text list object e.2

/-! ## Equality -/

variable {m : Number} {v w : Value}

theorem same_of_number (hv : v.number? = some m) : same v w = sameNumber m w := by
  cases v <;> cases hv <;> simp only [same]

theorem order?_of_number (hv : v.number? = some m) : order? v w = orderNumber? m w := by
  cases v <;> cases hv <;> simp only [order?]

theorem same_of_not_number (hv : v.number? = none) (hw : w.number? = some m) :
    same v w = false := by
  cases v <;> cases hv <;> cases w <;> cases hw <;> rfl

theorem order?_of_not_number (hv : v.number? = none) (hw : w.number? = some m) :
    order? v w = none := by
  cases v <;> cases hv <;> cases w <;> cases hw <;> rfl

theorem same_comm_of_number (hv : v.number? = some m) : same v w = same w v := by
  rw [same_of_number hv]
  unfold sameNumber
  cases hw : w.number? with
  | none => rw [same_of_not_number hw hv]
  | some n =>
    rw [same_of_number hw, sameNumber, hv]
    exact m.sameValue_comm n

/-- Equality of lists does not depend on the order of the two if that of items does not. -/
theorem sameList_comm {xs : List Value} : ∀ {ys : List Value},
    (∀ x ∈ xs, ∀ y ∈ ys, same x y = same y x) → sameList xs ys = sameList ys xs := by
  induction xs with
  | nil =>
    intro ys _
    cases ys <;> rfl
  | cons x xs ih =>
    intro ys h
    cases ys with
    | nil => rfl
    | cons y ys =>
      have hfirst := h x List.mem_cons_self y List.mem_cons_self
      have hrest := ih fun a ha b hb =>
        h a (List.mem_cons_of_mem x ha) b (List.mem_cons_of_mem y hb)
      rw [sameList, sameList, hfirst, hrest]

theorem sameFields_iff {fields other : Entries Value} : sameFields fields other = true ↔
    ∀ e ∈ fields, ∃ w, Entries.get? other e.1 = some w ∧ same e.2 w = true := by
  induction fields with
  | nil => simp [sameFields]
  | cons e rest ih =>
    obtain ⟨k, v⟩ := e
    rw [sameFields, Bool.and_eq_true, ih, List.forall_mem_cons]
    cases Entries.get? other k <;> simp

/-- Objects without repeated names that are as long have the same names if one has those of the
other, so either may be gone through. -/
theorem sameFields_swap {fields other : Entries Value} (hfields : (fields.map Prod.fst).Nodup)
    (hother : (other.map Prod.fst).Nodup) (hlength : fields.length = other.length)
    (hcomm : ∀ e ∈ fields, ∀ f ∈ other, same e.2 f.2 = same f.2 e.2)
    (h : sameFields fields other = true) : sameFields other fields = true := by
  rw [sameFields_iff] at h ⊢
  have hsub : fields.map Prod.fst ⊆ other.map Prod.fst := by
    intro k hk
    obtain ⟨e, he, rfl⟩ := List.mem_map.1 hk
    obtain ⟨w, hw, -⟩ := h e he
    exact Entries.mem_names_of_get? hw
  -- No name is counted twice and there are as many, so no name of the other is missing.
  have hperm : (fields.map Prod.fst).Perm (other.map Prod.fst) :=
    (List.Nodup.subperm hfields hsub).perm_of_length_le
      (by rw [List.length_map, List.length_map]; exact Nat.le_of_eq hlength.symm)
  intro f hf
  obtain ⟨e, he, hname⟩ := List.mem_map.1 (hperm.mem_iff.2 (List.mem_map_of_mem hf))
  obtain ⟨w, hw, hsame⟩ := h e he
  rw [hname, Entries.get?_of_mem hother hf] at hw
  cases hw
  refine ⟨e.2, ?_, hcomm e he f hf ▸ hsame⟩
  rw [← hname]
  exact Entries.get?_of_mem hfields he

/-- **Equality does not depend on the order of the two values**, if no object has a name twice. -/
theorem same_comm {v w : Value} (hv : v.isDistinct = true) (hw : w.isDistinct = true) :
    same v w = same w v := by
  induction v using Value.induct generalizing w with
  | bool b => exact same_comm_of_number rfl
  | int n => exact same_comm_of_number rfl
  | real x => exact same_comm_of_number rfl
  | null => cases w <;> rfl
  | text s =>
    cases w with
    | text t => rw [same, same, decide_eq_decide, eq_comm]
    | _ => rfl
  | list xs ih =>
    cases w with
    | list ys =>
      rw [same, same]
      refine sameList_comm fun x hx y hy => ih x hx ?_ ?_
      · exact areDistinct_iff.1 hv x hx
      · exact areDistinct_iff.1 hw y hy
    | _ => rfl
  | object fields ih =>
    cases w with
    | object other =>
      obtain ⟨hnames, hfields⟩ := isDistinct_object_iff.1 hv
      obtain ⟨hnames', hother⟩ := isDistinct_object_iff.1 hw
      have hcomm : ∀ e ∈ fields, ∀ f ∈ other, same e.2 f.2 = same f.2 e.2 :=
        fun e he f hf => ih e he (hfields e he) (hother f hf)
      rw [same, same, Bool.eq_iff_iff, Bool.and_eq_true, Bool.and_eq_true, decide_eq_true_iff,
        decide_eq_true_iff]
      constructor
      · rintro ⟨hlength, h⟩
        exact ⟨hlength.symm, sameFields_swap hnames hnames' hlength hcomm h⟩
      · rintro ⟨hlength, h⟩
        refine ⟨hlength.symm, sameFields_swap hnames' hnames hlength ?_ h⟩
        exact fun f hf e he => (hcomm e he f hf).symm
    | _ => rfl

/-! ## Order -/

/-- In lists with equal items there is no first pair that differs. -/
theorem orderList?_eq_of_sameList {xs : List Value} : ∀ {ys : List Value},
    sameList xs ys = true → orderList? xs ys = some .eq := by
  induction xs with
  | nil =>
    intro ys h
    cases ys with
    | nil => rfl
    | cons y ys => cases h
  | cons x xs ih =>
    intro ys h
    cases ys with
    | nil => cases h
    | cons y ys =>
      rw [sameList, Bool.and_eq_true] at h
      rw [orderList?, if_pos h.1]
      exact ih h.2

theorem sameList_of_orderList?_eq {xs : List Value} : ∀ {ys : List Value},
    (∀ x ∈ xs, ∀ y, order? x y = some .eq → same x y = true) →
    orderList? xs ys = some .eq → sameList xs ys = true := by
  induction xs with
  | nil =>
    intro ys _ h
    cases ys with
    | nil => rfl
    | cons y ys => cases h
  | cons x xs ih =>
    intro ys hitems h
    cases ys with
    | nil => cases h
    | cons y ys =>
      rw [orderList?] at h
      rw [sameList, Bool.and_eq_true]
      split at h
      · -- The lists differ further on, if at all.
        rename_i hsame
        exact ⟨hsame, ih (fun a ha => hitems a (List.mem_cons_of_mem x ha)) h⟩
      · rename_i hsame
        exact absurd (hitems x List.mem_cons_self y h) hsame

theorem orderNumber?_eq_iff : orderNumber? m w = some .eq ↔ sameNumber m w = true := by
  unfold orderNumber? sameNumber
  cases w.number? with
  | none => simp
  | some n => exact beq_iff_eq.symm

theorem order?_eq_iff_of_number (hv : v.number? = some m) :
    order? v w = some .eq ↔ same v w = true := by
  rw [order?_of_number hv, same_of_number hv]
  exact orderNumber?_eq_iff

/-- Values of which neither is below the other are equal. -/
theorem same_of_order?_eq {v w : Value} (h : order? v w = some .eq) : same v w = true := by
  induction v using Value.induct generalizing w with
  | bool b => exact (order?_eq_iff_of_number rfl).1 h
  | int n => exact (order?_eq_iff_of_number rfl).1 h
  | real x => exact (order?_eq_iff_of_number rfl).1 h
  | null => cases w <;> cases h
  | text s =>
    cases w with
    | text t =>
      rw [order?, Option.some.injEq, Std.compare_eq_iff_eq] at h
      rw [same, decide_eq_true_iff]
      exact h
    | _ => cases h
  | list xs ih =>
    cases w with
    | list ys => exact sameList_of_orderList?_eq (fun x hx y => ih x hx) h
    | _ => cases h
  | object fields _ => cases w <;> cases h

/-- The order of two lists the other way round. -/
theorem orderList?_swap {xs : List Value} : ∀ {ys : List Value},
    (∀ x ∈ xs, ∀ y ∈ ys, same x y = same y x ∧ (order? x y).map Ordering.swap = order? y x) →
    (orderList? xs ys).map Ordering.swap = orderList? ys xs := by
  induction xs with
  | nil =>
    intro ys _
    cases ys <;> rfl
  | cons x xs ih =>
    intro ys h
    cases ys with
    | nil => rfl
    | cons y ys =>
      obtain ⟨hsame, hfirst⟩ := h x List.mem_cons_self y List.mem_cons_self
      have hrest := ih fun a ha b hb =>
        h a (List.mem_cons_of_mem x ha) b (List.mem_cons_of_mem y hb)
      -- Both orders skip the same pairs, those that are equal.
      rw [orderList?, orderList?, ← hsame]
      split
      · exact hrest
      · exact hfirst

theorem order?_swap_of_number (hv : v.number? = some m) :
    (order? v w).map Ordering.swap = order? w v := by
  rw [order?_of_number hv]
  unfold orderNumber?
  cases hw : w.number? with
  | none => rw [order?_of_not_number hw hv]; rfl
  | some n =>
    rw [order?_of_number hw, orderNumber?, hv]
    exact m.compare?_swap n

/-- **The order of two values the other way round is the opposite one.** -/
theorem order?_swap {v w : Value} (hv : v.isDistinct = true) (hw : w.isDistinct = true) :
    (order? v w).map Ordering.swap = order? w v := by
  induction v using Value.induct generalizing w with
  | bool b => exact order?_swap_of_number rfl
  | int n => exact order?_swap_of_number rfl
  | real x => exact order?_swap_of_number rfl
  | null => cases w <;> rfl
  | text s =>
    cases w with
    | text t =>
      rw [order?, order?, Option.map_some, Option.some.injEq]
      exact Std.OrientedOrd.eq_swap.symm
    | _ => rfl
  | list xs ih =>
    cases w with
    | list ys =>
      have hxs := areDistinct_iff.1 hv
      have hys := areDistinct_iff.1 hw
      rw [order?, order?]
      exact orderList?_swap fun x hx y hy =>
        ⟨same_comm (hxs x hx) (hys y hy), ih x hx (hxs x hx) (hys y hy)⟩
    | _ => rfl
  | object fields _ => cases w <;> rfl

/-- A value equals another where neither is below the other. Null and objects have no order. -/
theorem same_eq_order? (hnull : v ≠ .null)
    (hobjects : ¬ ((∃ fields, v = .object fields) ∧ ∃ fields, w = .object fields)) :
    same v w = (order? v w == some .eq) := by
  rw [Bool.eq_iff_iff, beq_iff_eq]
  refine ⟨fun h => ?_, same_of_order?_eq⟩
  cases v with
  | null => exact absurd rfl hnull
  | bool b => exact (order?_eq_iff_of_number rfl).2 h
  | int n => exact (order?_eq_iff_of_number rfl).2 h
  | real x => exact (order?_eq_iff_of_number rfl).2 h
  | text s =>
    cases w with
    | text t =>
      rw [same, decide_eq_true_iff] at h
      rw [order?, h, Std.compare_self]
    | _ => cases h
  | list xs =>
    cases w with
    | list ys => exact orderList?_eq_of_sameList h
    | _ => cases h
  | object fields =>
    cases w with
    | object other => exact absurd ⟨⟨_, rfl⟩, _, rfl⟩ hobjects
    | _ => cases h

/-! ## Operands of conditions -/

/-- Lists and objects. -/
def isNested : Value → Bool
  | .list _ | .object _ => true
  | _ => false

/-- How the operands of a condition are compared: as numbers, of which a text may spell one, as
texts, or as they are if one of them is a list or an object. -/
inductive Operands : Value → Value → Prop
  | numbers {v w : Value} {m n : Number} (left : v.number? = some m) (right : w.number? = some n) :
      Operands v w
  | numberText {v : Value} {m : Number} (left : v.number? = some m) (t : String) :
      Operands v (.text t)
  | textNumber (s : String) {w : Value} {n : Number} (right : w.number? = some n) :
      Operands (.text s) w
  | texts (s t : String) : Operands (.text s) (.text t)
  | nested {v w : Value} (either : v.isNested = true ∨ w.isNested = true) : Operands v w

theorem operands_of_number (hv : v.number? = some m) (hw : w ≠ .null) : Operands v w := by
  cases w with
  | null => exact absurd rfl hw
  | text t => exact .numberText hv t
  | list items => exact .nested (.inr rfl)
  | object fields => exact .nested (.inr rfl)
  | _ => exact .numbers hv rfl

theorem operands (hv : v ≠ .null) (hw : w ≠ .null) : Operands v w := by
  cases v with
  | null => exact absurd rfl hv
  | list items => exact .nested (.inl rfl)
  | object fields => exact .nested (.inl rfl)
  | text s =>
    cases w with
    | null => exact absurd rfl hw
    | text t => exact .texts s t
    | list items => exact .nested (.inr rfl)
    | object fields => exact .nested (.inr rfl)
    | _ => exact .textNumber s rfl
  | _ => exact operands_of_number rfl hw

section
variable {n : Number} {s t : String}

theorem looselyEqual_numbers (hv : v.number? = some m) (hw : w.number? = some n) :
    looselyEqual v w = m.sameValue n := by
  cases v <;> cases hv <;> cases w <;> cases hw <;> rfl

theorem looseOrder?_numbers (hv : v.number? = some m) (hw : w.number? = some n) :
    looseOrder? v w = m.compare? n := by
  cases v <;> cases hv <;> cases w <;> cases hw <;>
    simp only [looseOrder?, order?, orderNumber?, number?]

theorem looselyEqual_numberText (hv : v.number? = some m) :
    looselyEqual v (.text t) = (textNumber? t).any m.sameValue := by
  cases v <;> cases hv <;> simp only [looselyEqual, number?] <;> cases textNumber? t <;> rfl

theorem looseOrder?_numberText (hv : v.number? = some m) :
    looseOrder? v (.text t) = (textNumber? t).bind m.compare? := by
  cases v <;> cases hv <;> simp only [looseOrder?, number?] <;> cases textNumber? t <;> rfl

theorem looselyEqual_textNumber (hw : w.number? = some n) :
    looselyEqual (.text s) w = (textNumber? s).any (·.sameValue n) := by
  cases w <;> cases hw <;> simp only [looselyEqual, number?] <;> cases textNumber? s <;> rfl

theorem looseOrder?_textNumber (hw : w.number? = some n) :
    looseOrder? (.text s) w = (textNumber? s).bind (·.compare? n) := by
  cases w <;> cases hw <;> simp only [looseOrder?, number?] <;> cases textNumber? s <;> rfl

theorem looselyEqual_nested (h : v.isNested = true ∨ w.isNested = true) :
    looselyEqual v w = same v w := by
  rcases h with h | h
  · cases v <;> cases h <;> cases w <;> rfl
  · cases w <;> cases h <;> cases v <;> rfl

theorem looseOrder?_nested (h : v.isNested = true ∨ w.isNested = true) :
    looseOrder? v w = order? v w := by
  rcases h with h | h
  · cases v <;> cases h <;> cases w <;> rfl
  · cases w <;> cases h <;> cases v <;> rfl
end

/-- **A condition finds two values equal where neither is below the other.** -/
theorem looselyEqual_eq (hv : v ≠ .null) (hw : w ≠ .null)
    (hobjects : ¬ ((∃ fields, v = .object fields) ∧ ∃ fields, w = .object fields)) :
    looselyEqual v w = (looseOrder? v w == some .eq) := by
  cases operands hv hw with
  | numbers left right =>
    rw [looselyEqual_numbers left right, looseOrder?_numbers left right]
    rfl
  | numberText left t =>
    rw [looselyEqual_numberText left, looseOrder?_numberText left]
    cases textNumber? t <;> rfl
  | textNumber s right =>
    rw [looselyEqual_textNumber right, looseOrder?_textNumber right]
    cases textNumber? s <;> rfl
  | texts s t =>
    rw [looselyEqual, looseOrder?, Bool.eq_iff_iff, decide_eq_true_iff, beq_iff_eq,
      Option.some.injEq, Std.compare_eq_iff_eq]
  | nested either =>
    rw [looselyEqual_nested either, looseOrder?_nested either]
    exact same_eq_order? hv hobjects

/-- **The operands the other way round have the opposite order.** -/
theorem looseOrder?_swap (hv : v ≠ .null) (hw : w ≠ .null) (hdistinct : v.isDistinct = true)
    (hdistinct' : w.isDistinct = true) :
    (looseOrder? v w).map Ordering.swap = looseOrder? w v := by
  cases operands hv hw with
  | @numbers _ _ m n left right =>
    rw [looseOrder?_numbers left right, looseOrder?_numbers right left]
    exact m.compare?_swap n
  | @numberText _ m left t =>
    rw [looseOrder?_numberText left, looseOrder?_textNumber left]
    cases textNumber? t with
    | none => rfl
    | some n => exact m.compare?_swap n
  | @textNumber s _ n right =>
    rw [looseOrder?_textNumber right, looseOrder?_numberText right]
    cases textNumber? s with
    | none => rfl
    | some m => exact m.compare?_swap n
  | texts s t =>
    rw [looseOrder?, looseOrder?, Option.map_some, Option.some.injEq]
    exact Std.OrientedOrd.eq_swap.symm
  | nested either =>
    rw [looseOrder?_nested either, looseOrder?_nested either.symm]
    exact order?_swap hdistinct hdistinct'

/-! ## Values that have an order -/

mutual

/-- Whether not-a-number stands anywhere in a value. -/
def hasNaN : Value → Bool
  | .real x => x.isNaN
  | .list items => anyNaN items
  | .object fields => anyFieldNaN fields
  | _ => false

/-- Whether not-a-number stands anywhere in the items. -/
def anyNaN : List Value → Bool
  | [] => false
  | v :: rest => hasNaN v || anyNaN rest

/-- Whether not-a-number stands anywhere in the fields. -/
def anyFieldNaN : List (String × Value) → Bool
  | [] => false
  | (_, v) :: rest => hasNaN v || anyFieldNaN rest

end

/-- Two numbers or booleans, two texts, or a number or boolean and a text that spells a number. -/
inductive Comparable : Value → Value → Prop
  | numbers {v w : Value} (left : v.number?.isSome = true) (right : w.number?.isSome = true) :
      Comparable v w
  | texts (s t : String) : Comparable (.text s) (.text t)
  | numberText {v : Value} {t : String} (left : v.number?.isSome = true)
      (right : (toNumber? (.text t)).isSome = true) : Comparable v (.text t)
  | textNumber {s : String} {w : Value} (left : (toNumber? (.text s)).isSome = true)
      (right : w.number?.isSome = true) : Comparable (.text s) w

theorem isNaN_of_number (hv : v.hasNaN = false) (hm : v.number? = some m) : m.isNaN = false := by
  cases v <;> cases hm
  · rfl
  · rfl
  · exact hv

/-- A text does not spell not-a-number. -/
theorem isNaN_of_textNumber {t : String} (h : textNumber? t = some m) : m.isNaN = false := by
  unfold textNumber? at h
  dsimp only at h
  split at h
  · cases h
    rfl
  · split at h
    · cases h
    · rename_i x _
      split at h
      · cases h
      · rename_i hnan
        split at h
        · obtain ⟨k, -, rfl⟩ := Option.map_eq_some_iff.1 h
          rfl
        · cases h
          exact Bool.eq_false_iff.2 hnan

/-- **Values of kinds that compare have an order.** -/
theorem Comparable.exists_order (h : Comparable v w) (hv : v.hasNaN = false)
    (hw : w.hasNaN = false) : ∃ o, looseOrder? v w = some o := by
  cases h with
  | numbers left right =>
    obtain ⟨m, hm⟩ := Option.isSome_iff_exists.1 left
    obtain ⟨n, hn⟩ := Option.isSome_iff_exists.1 right
    rw [looseOrder?_numbers hm hn]
    exact Number.exists_compare? (isNaN_of_number hv hm) (isNaN_of_number hw hn)
  | texts s t => exact ⟨_, rfl⟩
  | @numberText _ t left right =>
    obtain ⟨m, hm⟩ := Option.isSome_iff_exists.1 left
    obtain ⟨n, hn⟩ : ∃ n, textNumber? t = some n := Option.isSome_iff_exists.1 right
    rw [looseOrder?_numberText hm, hn]
    exact Number.exists_compare? (isNaN_of_number hv hm) (isNaN_of_textNumber hn)
  | @textNumber s _ left right =>
    obtain ⟨m, hm⟩ : ∃ m, textNumber? s = some m := Option.isSome_iff_exists.1 left
    obtain ⟨n, hn⟩ := Option.isSome_iff_exists.1 right
    rw [looseOrder?_textNumber hn, hm]
    exact Number.exists_compare? (isNaN_of_textNumber hm) (isNaN_of_number hw hn)

end Value

/-! ## Conditions -/

/-- The operator that asks whether two values have an order. -/
def Operator.ofOrdering : Ordering → Operator
  | .lt => .lessThan
  | .eq => .equals
  | .gt => .greaterThan

namespace Value

variable {v w : Value}

/-- The comparisons of two values fit together, whichever of the two stands on the left. -/
structure Consistent (v w : Value) : Prop where
  equals_comm : v.satisfies (some .equals) w = w.satisfies (some .equals) v
  greaterThan_swap : v.satisfies (some .greaterThan) w = w.satisfies (some .lessThan) v
  greaterOrEqual_iff : v.satisfies (some .greaterOrEqual) w = true ↔
    v.satisfies (some .greaterThan) w = true ∨ v.satisfies (some .equals) w = true
  lessOrEqual_iff : v.satisfies (some .lessOrEqual) w = true ↔
    v.satisfies (some .lessThan) w = true ∨ v.satisfies (some .equals) w = true
  at_most_one : ∀ o p, v.satisfies (some (.ofOrdering o)) w = true →
    v.satisfies (some (.ofOrdering p)) w = true → o = p
  exactly_one : Comparable v w → ∃! o, v.satisfies (some (.ofOrdering o)) w = true

/-- A condition that asks for an order finds the one that the operands have. -/
theorem satisfies_ofOrdering (h : looselyEqual v w = (looseOrder? v w == some .eq))
    (o : Ordering) : v.satisfies (some (.ofOrdering o)) w = true ↔ looseOrder? v w = some o := by
  cases o with
  | eq => rw [Operator.ofOrdering, satisfies, h, beq_iff_eq]
  | lt => exact beq_iff_eq
  | gt => exact beq_iff_eq

/-- **The comparisons of conditions are consistent**, unless an operand is null or both are objects:
neither of those has an order, though it may be equal to another. -/
theorem conditions_consistent (hnan : v.hasNaN = false) (hnan' : w.hasNaN = false)
    (hdistinct : v.isDistinct = true) (hdistinct' : w.isDistinct = true) (hv : v ≠ .null)
    (hw : w ≠ .null)
    (hobjects : ¬ ((∃ fields, v = .object fields) ∧ ∃ fields, w = .object fields)) :
    Consistent v w := by
  have hequal := looselyEqual_eq hv hw hobjects
  have hequal' := looselyEqual_eq hw hv fun h => hobjects h.symm
  have hswap := looseOrder?_swap hv hw hdistinct hdistinct'
  have hasks := satisfies_ofOrdering hequal
  constructor
  case at_most_one =>
    intro o p ho hp
    rw [hasks] at ho hp
    exact Option.some.inj (ho.symm.trans hp)
  case exactly_one =>
    intro h
    obtain ⟨o, ho⟩ := h.exists_order hnan hnan'
    refine ⟨o, (hasks o).2 ho, fun p hp => ?_⟩
    exact Option.some.inj (((hasks p).1 hp).symm.trans ho)
  all_goals
    -- What is left compares Booleans that depend on the one order.
    simp only [satisfies, hequal, hequal', ← hswap]
    rcases looseOrder? v w with _ | _ | _ | _ <;> decide

/-- Lists that agree up to the order of fields and then differ in a text. -/
theorem nested_lists_consistent :
    Consistent (.list [.object [("a", .int 1), ("b", .null)], .text "x"])
      (.list [.object [("b", .null), ("a", .bool true)], .text "y"]) :=
  conditions_consistent (by decide) (by decide) (by decide) (by decide) Value.noConfusion
    Value.noConfusion (by rintro ⟨⟨_, h⟩, -⟩; cases h)

end Value
end Workgraph
