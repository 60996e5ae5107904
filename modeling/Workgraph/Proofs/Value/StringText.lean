import Mathlib.Tactic
import Workgraph.Value.Json
/-!
# Reading back strings

Each character of a written string reads back from its escape in one step
(`Json.readString_escapeChar`), so a string reads back from its text (`Json.readString_flatMap`).
Characters beyond sixteen bits are written as two units and joined again.
-/

namespace Workgraph

namespace Json

/-! ## Units -/

theorem hexValue?_digitChar {n : Nat} (hn : n < 16) : hexValue? n.digitChar = some n := by
  interval_cases n <;> decide

theorem hexNat?_append (ds : List Char) (c : Char) :
    hexNat? (ds ++ [c]) = (hexNat? ds).bind fun n => (hexValue? c).map (16 * n + ·) := by
  rw [hexNat?, List.foldl_append]
  rfl

theorem hexNat?_zeros (n : Nat) (ds : List Char) :
    hexNat? (List.replicate n '0' ++ ds) = hexNat? ds := by
  induction n with
  | zero => rfl
  | succ n ih => exact ih

theorem hexNat?_toDigits (n : Nat) : hexNat? (Nat.toDigits 16 n) = some n := by
  induction n using Nat.strongRecOn with
  | ind n ih =>
    rw [Nat.toDigits_eq_if (by norm_num)]
    split
    · rename_i hsmall
      have hdigit := hexNat?_append [] n.digitChar
      rw [hexValue?_digitChar hsmall] at hdigit
      simpa [hexNat?] using hdigit
    · rw [hexNat?_append, ih (n / 16) (by omega), hexValue?_digitChar (Nat.mod_lt _ (by norm_num))]
      simp only [Option.bind_some, Option.map_some, Option.some.injEq]
      omega

theorem hexNat?_hex (width n : Nat) : hexNat? (Text.hex width n) = some n := by
  rw [Text.hex, hexNat?_zeros, hexNat?_toDigits]

theorem length_hex {n : Nat} (hn : n < 65536) : (Text.hex 4 n).length = 4 := by
  have hlength : (Nat.toDigits 16 n).length ≤ 4 :=
    (Nat.length_toDigits_le_iff (by norm_num) (by norm_num)).2 hn
  rw [Text.hex, List.length_append, List.length_replicate]
  omega

/-- A unit reads back from its escape unless the text ends behind it. -/
theorem readUnit_unitEscape {n : Nat} (hn : n < 65536) {rest : List Char} (hrest : rest ≠ []) :
    readUnit (unitEscape n ++ rest) = .ok (n, rest) := by
  have hlength := length_hex hn
  have hpos := List.length_pos_of_ne_nil hrest
  have hdrop : (unitEscape n ++ rest).drop 2 = Text.hex 4 n ++ rest := rfl
  simp only [readUnit, hdrop]
  rw [if_neg (by rw [List.length_append]; omega), List.take_left' hlength, List.drop_left' hlength,
    hexNat?_hex]

/-! ## Characters -/

theorem unitEscape_eq (n : Nat) : unitEscape n = '\\' :: 'u' :: Text.hex 4 n := rfl

variable {start fuel : Nat} {acc rest : List Char}

/-- A unit that is no surrogate stands for the character of its number. -/
theorem readString_unitEscape {c : Char} (hc : c.toNat < 0x10000) (hrest : rest ≠ []) :
    readString start (fuel + 1) acc (unitEscape c.toNat ++ rest) =
      readString start fuel (c :: acc) rest := by
  have hunit := readUnit_unitEscape hc hrest
  have hvalid : c.toNat < 0xD800 ∨ 0xDFFF < c.toNat ∧ c.toNat < 0x110000 := c.valid
  rw [unitEscape_eq, List.cons_append, List.cons_append] at hunit ⊢
  rw [readString, if_neg (by decide), if_pos rfl]
  simp only [hunit]
  rw [if_neg (by omega), if_neg (by omega), Char.ofNat_toNat]

/-- Two surrogates stand for the character that they join to. -/
theorem readString_surrogates {high low : Nat} (hhigh : 0xD800 ≤ high ∧ high < 0xDC00)
    (hlow : 0xDC00 ≤ low ∧ low < 0xE000) (hrest : rest ≠ []) :
    readString start (fuel + 1) acc (unitEscape high ++ (unitEscape low ++ rest)) =
      readString start fuel
        (Char.ofNat (0x10000 + (high - 0xD800) * 0x400 + (low - 0xDC00)) :: acc) rest := by
  have hlast := readUnit_unitEscape (n := low) (by omega) hrest
  have hne : unitEscape low ++ rest ≠ [] := by simp [unitEscape]
  have hfirst := readUnit_unitEscape (n := high) (by omega) hne
  have hlength : 6 < (unitEscape low ++ rest).length := by
    have := List.length_pos_of_ne_nil hrest
    rw [unitEscape_eq, List.length_append, List.length_cons, List.length_cons,
      length_hex (by omega)]
    omega
  rw [unitEscape_eq high, List.cons_append, List.cons_append] at hfirst ⊢
  rw [readString, if_neg (by decide), if_pos rfl]
  simp only [hfirst]
  rw [if_pos hhigh]
  rw [unitEscape_eq, List.cons_append, List.cons_append] at hlast hlength ⊢
  simp only [hlast]
  rw [if_neg (by omega), if_pos hlow]

/-- A letter behind a backslash stands for its character. -/
theorem readString_letter {e d : Char} (hd : unescape? e = some d) :
    readString start (fuel + 1) acc ('\\' :: e :: rest) = readString start fuel (d :: acc) rest := by
  have he : e ≠ 'u' := by
    rintro rfl
    cases hd
  rw [readString, if_neg (by decide), if_pos rfl]
  · simp [hd]
  · exact he

/-- A character that needs no escape stands for itself. -/
theorem readString_plain {c : Char} (hquote : c ≠ '"') (hslash : c ≠ '\\') (hc : 32 ≤ c.toNat) :
    readString start (fuel + 1) acc (c :: rest) = readString start fuel (c :: acc) rest := by
  rw [readString.eq_def]
  simp only
  rw [if_neg hquote, if_neg hslash, if_neg (by omega)]

theorem eq_of_toNat_eq {c d : Char} (h : c.toNat = d.toNat) : c = d := by
  rw [← Char.ofNat_toNat c, h, Char.ofNat_toNat]

/-- **A character reads back from its escape in one step.** -/
theorem readString_escapeChar (ascii : Bool) (c : Char) (hrest : rest ≠ []) :
    readString start (fuel + 1) acc (escapeChar ascii c ++ rest) =
      readString start fuel (c :: acc) rest := by
  have hvalid : c.toNat < 0xD800 ∨ 0xDFFF < c.toNat ∧ c.toNat < 0x110000 := c.valid
  unfold escapeChar
  simp only [Bool.or_eq_true, decide_eq_true_eq]
  split_ifs with hself hline hreturn htab hform hback hcontrol hplain hnarrow
  · rcases hself with rfl | rfl
    · exact readString_letter rfl
    · exact readString_letter rfl
  · exact hline ▸ readString_letter rfl
  · exact hreturn ▸ readString_letter rfl
  · exact htab ▸ readString_letter rfl
  · have hc : c = Char.ofNat 12 := eq_of_toNat_eq hform
    exact hc ▸ readString_letter rfl
  · have hc : c = Char.ofNat 8 := eq_of_toNat_eq hback
    exact hc ▸ readString_letter rfl
  · exact readString_unitEscape (by omega) hrest
  · exact readString_plain (fun h => hself (.inl h)) (fun h => hself (.inr h)) (by omega)
  · exact readString_unitEscape (by omega) hrest
  · have hjoined : 0x10000 + (0xD800 + (c.toNat - 0x10000) / 0x400 - 0xD800) * 0x400 +
        (0xDC00 + (c.toNat - 0x10000) % 0x400 - 0xDC00) = c.toNat := by
      omega
    rw [List.append_assoc, readString_surrogates (by omega) (by omega) hrest, hjoined,
      Char.ofNat_toNat]

/-- **A string reads back from the escapes of its characters.** -/
theorem readString_flatMap (ascii : Bool) (start : Nat) (rest : List Char) (cs : List Char) :
    ∀ {fuel acc}, cs.length < fuel →
      readString start fuel acc (cs.flatMap (escapeChar ascii) ++ '"' :: rest) =
        .ok (String.ofList (acc.reverse ++ cs), rest) := by
  induction cs with
  | nil =>
    intro fuel acc hfuel
    obtain ⟨fuel, rfl⟩ : ∃ n, fuel = n + 1 := ⟨fuel - 1, by simp at hfuel; omega⟩
    simp [readString]
  | cons c cs ih =>
    intro fuel acc hfuel
    obtain ⟨fuel, rfl⟩ : ∃ n, fuel = n + 1 := ⟨fuel - 1, by simp at hfuel; omega⟩
    rw [List.flatMap_cons, List.append_assoc, readString_escapeChar ascii c (by simp),
      ih (by simpa using hfuel)]
    simp

end Json

end Workgraph
