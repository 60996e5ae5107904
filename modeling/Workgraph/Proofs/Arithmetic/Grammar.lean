import Workgraph.Arithmetic.Parser
/-!
# The grammar of expressions

The sentences of arithmetic, described apart from the parser:

* a sum is a term, and then any number of further terms, each after a plus or minus sign;
* a term is a factor, and then any number of further factors, each after a multiplication or division
  sign;
* a factor is a signed factor, a number, a placeholder, or a sum in parentheses.

Sums and terms have one shape, so they share their rules: both are chains of parts. A parse tree
spells the tokens of a sentence, and it has a value, for which the parts of a chain are joined from
the left. No two parse trees spell the same sentence (`ParseTree.eq_of_tokens`).
-/

namespace Workgraph.Arithmetic

/-- The chains: sums of terms, and terms of factors. -/
inductive Level where
  | sum
  | term
deriving DecidableEq

/-- The phrases of the grammar. -/
inductive Phrase where
  | chain (l : Level)
  | factor
deriving DecidableEq

namespace Level

/-- What a chain consists of. -/
def part : Level → Phrase
  | sum => .chain .term
  | term => .factor

/-- The two operations that join the parts of a chain. -/
def operation : Level → Bool → Operation
  | sum, false => .add
  | sum, true => .subtract
  | term, false => .multiply
  | term, true => .divide

/-- The symbols of these operations. -/
def symbol : Level → Bool → Symbol
  | sum, false => .plus
  | sum, true => .minus
  | term, false => .star
  | term, true => .slash

end Level

mutual

/-- A parse tree, with the positions of its tokens. -/
inductive ParseTree : Phrase → Type where
  | chain (l : Level) (first : ParseTree l.part) (rest : ParseRest l) : ParseTree (.chain l)
  | signed (negative : Bool) (position : Nat) (operand : ParseTree .factor) : ParseTree .factor
  | number (n : Number) (position : Nat) : ParseTree .factor
  | placeholder (name : String) (position : Nat) : ParseTree .factor
  | group (opening closing : Nat) (inner : ParseTree (.chain .sum)) : ParseTree .factor

/-- The parts of a chain after the first. -/
inductive ParseRest : Level → Type where
  | last (l : Level) : ParseRest l
  | next (l : Level) (inverse : Bool) (position : Nat) (part : ParseTree l.part)
      (rest : ParseRest l) : ParseRest l

end

mutual

/-- The tokens that a tree spells. -/
def ParseTree.tokens {p : Phrase} : ParseTree p → List Token
  | .chain _ first rest => first.tokens ++ rest.tokens
  | .signed negative position operand => ⟨Level.sum.symbol negative, position⟩ :: operand.tokens
  | .number n position => [⟨.number n, position⟩]
  | .placeholder name position => [⟨.placeholder name, position⟩]
  | .group opening closing inner => ⟨.left, opening⟩ :: (inner.tokens ++ [⟨.right, closing⟩])

/-- The tokens of the parts after the first. -/
def ParseRest.tokens {l : Level} : ParseRest l → List Token
  | .last _ => []
  | .next l inverse position part rest =>
    ⟨l.symbol inverse, position⟩ :: (part.tokens ++ rest.tokens)

end

/-! ## Values -/

/-- What can go wrong while a tree is evaluated. -/
inductive Mishap where
  | divisionByZero (position : Nat)
  | outOfRange (position : Nat)
deriving DecidableEq

/-- A mishap as a fault. -/
def Mishap.fault : Mishap → Fault
  | divisionByZero position => faultAt "Division by zero" position
  | outOfRange position =>
    .expression (wordsAt "Result out of range" position) (some "OverflowError")

/-- Two numbers under an operation at a place of the text. -/
def Operation.attempt (operation : Operation) (position : Nat) (m n : Number) :
    Except Mishap Number :=
  if operation = .divide ∧ n.isZero then .error (.divisionByZero position)
  else
    match operation.result? m n with
    | some r => .ok r
    | none => .error (.outOfRange position)

theorem Operation.apply_eq (operation : Operation) (position : Nat) (m n : Number) :
    operation.apply position m n = (operation.attempt position m n).mapError Mishap.fault := by
  unfold Operation.apply Operation.attempt
  split
  · rfl
  · cases operation.result? m n <;> rfl

mutual

/-- The value of a tree, when each placeholder stands for a number. -/
def ParseTree.value (number : String → Number) {p : Phrase} : ParseTree p → Except Mishap Number
  | .chain _ first rest => do
    let m ← first.value number
    rest.valueFrom number m
  | .signed negative _ operand => do
    let n ← operand.value number
    return if negative then negate n else n
  | .number n _ => .ok n
  | .placeholder name _ => .ok (number name)
  | .group _ _ inner => inner.value number

/-- The value of a chain whose parts up to here have the value `m`. -/
def ParseRest.valueFrom (number : String → Number) {l : Level} (m : Number) :
    ParseRest l → Except Mishap Number
  | .last _ => .ok m
  | .next l inverse position part rest => do
    let n ← part.value number
    let r ← (l.operation inverse).attempt position m n
    rest.valueFrom number r

end

/-! ## One tree for each sentence -/

/-- The operation for which a symbol stands between the parts of a chain. -/
def Level.operation? : Level → Symbol → Option Operation
  | .sum => sumOperation?
  | .term => termOperation?

theorem Level.operation?_symbol (l : Level) (inverse : Bool) :
    l.operation? (l.symbol inverse) = some (l.operation inverse) := by
  cases l <;> cases inverse <;> rfl

/-- Whether tokens do not go on with a chain. What goes on with a part of it goes on with it. -/
def Level.EndsAt : Level → List Token → Prop
  | .sum, ts => ∀ t ∈ ts.head?, sumOperation? t.symbol = none ∧ termOperation? t.symbol = none
  | .term, ts => ∀ t ∈ ts.head?, termOperation? t.symbol = none

/-- Whether tokens do not go on with a phrase. -/
def Phrase.EndsAt : Phrase → List Token → Prop
  | .chain l => l.EndsAt
  | .factor => fun _ => True

namespace Level.EndsAt

variable {l : Level} {t : Token} {ts : List Token}

theorem nil (l : Level) : l.EndsAt [] := by
  cases l <;> (intro t ht; cases ht)

theorem operation?_eq_none (h : l.EndsAt (t :: ts)) : l.operation? t.symbol = none := by
  cases l with
  | sum => exact (h t rfl).1
  | term => exact h t rfl

theorem part (h : l.EndsAt ts) : l.part.EndsAt ts := by
  cases l with
  | sum => exact fun t ht => (h t ht).2
  | term => exact True.intro

/-- A part of a chain ends where the next part starts. -/
theorem rest (h : l.EndsAt ts) (r : ParseRest l) : l.part.EndsAt (r.tokens ++ ts) := by
  cases r with
  | last => exact h.part
  | next _ inverse position part rest =>
    cases l with
    | sum =>
      intro t ht
      rw [ParseRest.tokens, List.cons_append, List.head?_cons, Option.mem_some_iff] at ht
      subst ht
      cases inverse <;> rfl
    | term => exact True.intro

end Level.EndsAt

theorem Level.not_endsAt_symbol (l : Level) (inverse : Bool) (position : Nat) (ts : List Token) :
    ¬ l.EndsAt (⟨l.symbol inverse, position⟩ :: ts) := by
  intro h
  have hnone := h.operation?_eq_none
  rw [l.operation?_symbol] at hnone
  cases hnone

/-- The sum in parentheses ends at the closing one. -/
theorem Level.endsAt_right (closing : Nat) (ts : List Token) :
    Level.sum.EndsAt (⟨.right, closing⟩ :: ts) := by
  intro t ht
  cases ht
  exact ⟨rfl, rfl⟩

theorem Level.symbol_injective (l : Level) : Function.Injective l.symbol := by
  intro a b h
  cases l <;> cases a <;> cases b <;> first | rfl | cases h

mutual

/-- Two trees that spell the same tokens are the same, whatever follows these tokens, as long as it
does not go on with the phrase. -/
theorem ParseTree.eq_of_tokens_append {p : Phrase} : ∀ (t u : ParseTree p) {ts us : List Token},
    p.EndsAt ts → p.EndsAt us → t.tokens ++ ts = u.tokens ++ us → t = u ∧ ts = us
  | .chain l first rest, .chain _ first' rest', ts, us, hts, hus, h => by
    simp only [ParseTree.tokens, List.append_assoc] at h
    obtain ⟨hfirst, hmore⟩ := first.eq_of_tokens_append first' (hts.rest rest) (hus.rest rest') h
    obtain ⟨hrest, hend⟩ := rest.eq_of_tokens_append rest' hts hus hmore
    exact ⟨by rw [hfirst, hrest], hend⟩
  | .signed negative position operand, u, ts, us, _, _, h => by
    cases u with
    | signed negative' position' operand' =>
      simp only [ParseTree.tokens, List.cons_append, List.cons.injEq, Token.mk.injEq] at h
      obtain ⟨⟨hsymbol, hposition⟩, hmore⟩ := h
      obtain ⟨hoperand, hend⟩ := operand.eq_of_tokens_append operand' True.intro True.intro hmore
      exact ⟨by rw [Level.sum.symbol_injective hsymbol, hposition, hoperand], hend⟩
    | _ => cases negative <;> cases h
  | .number n position, u, ts, us, _, _, h => by
    cases u with
    | number n' position' =>
      cases h
      exact ⟨rfl, rfl⟩
    | signed negative' => cases negative' <;> cases h
    | _ => cases h
  | .placeholder name position, u, ts, us, _, _, h => by
    cases u with
    | placeholder name' position' =>
      cases h
      exact ⟨rfl, rfl⟩
    | signed negative' => cases negative' <;> cases h
    | _ => cases h
  | .group opening closing inner, u, ts, us, _, _, h => by
    cases u with
    | group opening' closing' inner' =>
      simp only [ParseTree.tokens, List.cons_append, List.append_assoc, List.nil_append,
        List.cons.injEq, Token.mk.injEq, true_and] at h
      obtain ⟨hopening, hmore⟩ := h
      obtain ⟨hinner, hend⟩ := inner.eq_of_tokens_append inner' (Level.endsAt_right closing ts)
        (Level.endsAt_right closing' us) hmore
      cases hend
      exact ⟨by rw [hopening, hinner], rfl⟩
    | signed negative' => cases negative' <;> cases h
    | _ => cases h

/-- The same for the rest of a chain. -/
theorem ParseRest.eq_of_tokens_append {l : Level} : ∀ (r s : ParseRest l) {ts us : List Token},
    l.EndsAt ts → l.EndsAt us → r.tokens ++ ts = s.tokens ++ us → r = s ∧ ts = us
  | .last l, .last _, ts, us, _, _, h => ⟨rfl, h⟩
  | .last l, .next _ inverse position part rest, ts, us, hts, _, h => by
    have hts' : l.EndsAt ((ParseRest.next l inverse position part rest).tokens ++ us) := h ▸ hts
    exact (l.not_endsAt_symbol inverse position _ hts').elim
  | .next l inverse position part rest, .last _, ts, us, _, hus, h => by
    have hus' : l.EndsAt ((ParseRest.next l inverse position part rest).tokens ++ ts) := h ▸ hus
    exact (l.not_endsAt_symbol inverse position _ hus').elim
  | .next l inverse position part rest, .next _ inverse' position' part' rest', ts, us, hts, hus,
      h => by
    simp only [ParseRest.tokens, List.cons_append, List.append_assoc, List.cons.injEq,
      Token.mk.injEq] at h
    obtain ⟨⟨hsymbol, hposition⟩, hmore⟩ := h
    obtain ⟨hpart, hmore'⟩ := part.eq_of_tokens_append part' (hts.rest rest) (hus.rest rest') hmore
    obtain ⟨hrest, hend⟩ := rest.eq_of_tokens_append rest' hts hus hmore'
    exact ⟨by rw [l.symbol_injective hsymbol, hposition, hpart, hrest], hend⟩

end

/-- **A sentence has one parse tree.** -/
theorem ParseTree.eq_of_tokens {l : Level} {t u : ParseTree (.chain l)} (h : t.tokens = u.tokens) :
    t = u :=
  (t.eq_of_tokens_append u (.nil l) (.nil l) (by rw [h])).1

end Workgraph.Arithmetic
