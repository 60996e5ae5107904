import Mathlib
import Workgraph.Proofs.Arithmetic.Parsing
/-!
# Evaluation in place

Tokens can be evaluated without an expression: an index goes over them, and each operation is carried
out as soon as both its operands are known. A mark stands after the last token. This comes to the same
as evaluating the parsed expression, and the index never leaves the tokens and the mark
(`evaluateInPlace_eq`).

With that all is known of how tokens are evaluated: the sentences of the grammar have the values of
their parse trees, and everything else fails (`parse_evaluates_sentences`).
-/

namespace Workgraph.Arithmetic

/-- Why an evaluation in place stops. -/
inductive Stop where
  /-- The index has left the tokens. -/
  | outside (index : Nat)
  /-- There are more calls than were allowed for. -/
  | exhausted
  | fault (f : Fault)

/-- The token at an index, and none at the mark after the last. -/
def tokenAt (ts : List Token) (index : Nat) : Except Stop (Option Token) :=
  if index ≤ ts.length then .ok ts[index]? else .error (.outside index)

section
variable (ts : List Token) (last : Nat) (resolve : String → Except Defect Value)

mutual

/-- The value of the phrase that starts at an index, and the index after it. -/
def valueAt : Nat → Phrase → Nat → Except Stop (Number × Nat)
  | 0, _, _ => .error .exhausted
  | fuel + 1, .chain l, i => do
    let (m, j) ← valueAt fuel l.part i
    moreValueAt fuel l m j
  | fuel + 1, .factor, i => do
    match ← tokenAt ts i with
    | none => throw (.fault (.expression "Unexpected end of expression" none))
    | some t =>
      match t.symbol with
      | .number n => return (n, i + 1)
      | .placeholder name =>
        let n ← ((Expr.placeholder name).eval resolve).mapError .fault
        return (n, i + 1)
      | .plus => valueAt fuel .factor (i + 1)
      | .minus =>
        let (n, j) ← valueAt fuel .factor (i + 1)
        return (negate n, j)
      | .left =>
        let (n, j) ← valueAt fuel (.chain .sum) (i + 1)
        match ← tokenAt ts j with
        | none => throw (.fault (faultAt "Expected ')'" last))
        | some u =>
          if u.symbol = .right then return (n, j + 1)
          else throw (.fault (faultAt "Expected ')'" u.position))
      | s => throw (.fault (faultAt ("Unexpected '" ++ s.text ++ "'") t.position))

/-- The value of a chain whose parts before an index have the value `m`, and the index after it. -/
def moreValueAt : Nat → Level → Number → Nat → Except Stop (Number × Nat)
  | 0, _, _, _ => .error .exhausted
  | fuel + 1, l, m, i => do
    match ← tokenAt ts i with
    | none => return (m, i)
    | some t =>
      match l.operation? t.symbol with
      | none => return (m, i)
      | some o =>
        let (n, j) ← valueAt fuel l.part (i + 1)
        let r ← (o.apply t.position m n).mapError .fault
        moreValueAt fuel l r j

end

/-- The value of the tokens, which are to be a sum. -/
def evaluateInPlace : Except Stop Number := do
  let (n, i) ← valueAt ts last resolve (3 * ts.length + 3) (.chain .sum) 0
  match ← tokenAt ts i with
  | none => return n
  | some t => throw (.fault (faultAt ("Unexpected '" ++ t.symbol.text ++ "'") t.position))

end

/-- An index within bounds is at the mark, where no tokens are left, or at the first of those that
are left. -/
theorem tokenAt_cases {ts : List Token} {i : Nat} (h : i ≤ ts.length) :
    (tokenAt ts i = .ok none ∧ ts.drop i = []) ∨
    ∃ t, i < ts.length ∧ tokenAt ts i = .ok (some t) ∧ ts.drop i = t :: ts.drop (i + 1) := by
  rw [tokenAt, if_pos h]
  rcases Nat.lt_or_eq_of_le h with hlt | heq
  · exact .inr ⟨ts[i], hlt, by rw [List.getElem?_eq_getElem hlt], List.drop_eq_getElem_cons hlt⟩
  · have hge : ts.length ≤ i := Nat.le_of_eq heq.symm
    exact .inl ⟨by rw [List.getElem?_eq_none hge], List.drop_eq_nil_of_le hge⟩

/-- The expression that has been parsed, complete or not. -/
def parsedExpr : Parsed → Expr
  | .ok (e, _) | .error e => e

/-- Evaluation in place keeps up with the parser: both fail alike, or the parser has read up to the
index, which has come to `i` at least. -/
inductive KeepsUp (ts : List Token) (resolve : String → Except Defect Value) (i : Nat) :
    Parsed → Except Stop (Number × Nat) → Prop
  | failed {r : Parsed} {f : Fault} (eval_eq : (parsedExpr r).eval resolve = .error f) :
      KeepsUp ts resolve i r (.error (.fault f))
  | read {e : Expr} {n : Number} {j : Nat} (eval_eq : e.eval resolve = .ok n) (le : i ≤ j)
      (inside : j ≤ ts.length) : KeepsUp ts resolve i (.ok (e, ts.drop j)) (.ok (n, j))

section
variable {ts : List Token} {last fuel i : Nat} {resolve : String → Except Defect Value} {l : Level}

/-- An operation fails as its first operand does. -/
theorem eval_binary_of_error {e r : Expr} {f : Fault} (h : e.eval resolve = .error f)
    (o : Operation) (position : Nat) : (Expr.binary o position e r).eval resolve = .error f := by
  rw [Expr.eval, h]

/-- A chain fails as its first parts do. -/
theorem eval_moreAt_of_error {f : Fault} (fuel : Nat) :
    ∀ (e : Expr) (us : List Token), e.eval resolve = .error f →
      (parsedExpr (moreAt last l fuel e us)).eval resolve = .error f := by
  induction fuel with
  | zero =>
    intro e us h
    rw [moreAt_zero]
    exact h
  | succ fuel ih =>
    intro e us h
    cases us with
    | nil =>
      rw [moreAt_nil]
      exact h
    | cons t us =>
      rw [moreAt_cons]
      cases l.operation? t.symbol with
      | none => exact h
      | some o =>
        cases parseAt last l.part fuel us with
        | error r => exact eval_binary_of_error h o t.position
        | ok parsed => exact ih _ _ (eval_binary_of_error h o t.position)

theorem KeepsUp.mono {r : Parsed} {x : Except Stop (Number × Nat)} {k : Nat}
    (h : KeepsUp ts resolve i r x) (hk : k ≤ i) : KeepsUp ts resolve k r x := by
  cases h with
  | failed heval => exact .failed heval
  | read heval le inside => exact .read heval (Nat.le_trans hk le) inside

theorem keepsUp_chain
    (hpart : KeepsUp ts resolve (i + 1) (parseAt last l.part fuel (ts.drop i))
      (valueAt ts last resolve fuel l.part i))
    (hmore : ∀ e m j, e.eval resolve = .ok m → i + 1 ≤ j → j ≤ ts.length →
      KeepsUp ts resolve j (moreAt last l fuel e (ts.drop j))
        (moreValueAt ts last resolve fuel l m j)) :
    KeepsUp ts resolve (i + 1) (parseAt last (.chain l) (fuel + 1) (ts.drop i))
      (valueAt ts last resolve (fuel + 1) (.chain l) i) := by
  rw [parseAt_chain, valueAt]
  generalize parseAt last l.part fuel (ts.drop i) = r at hpart ⊢
  generalize valueAt ts last resolve fuel l.part i = x at hpart ⊢
  cases hpart with
  | failed heval =>
    refine .failed ?_
    cases r with
    | error e => exact heval
    -- The parser goes on behind a part that has no value, and what it reads has none either.
    | ok parsed => exact eval_moreAt_of_error fuel _ _ heval
  | @read e m j heval le inside => exact (hmore e m j heval le inside).mono le

theorem keepsUp_more {e : Expr} {m : Number} (he : e.eval resolve = .ok m) (hi : i ≤ ts.length)
    (hpart : i < ts.length → KeepsUp ts resolve (i + 2) (parseAt last l.part fuel (ts.drop (i + 1)))
      (valueAt ts last resolve fuel l.part (i + 1)))
    (hmore : ∀ e m j, e.eval resolve = .ok m → i + 2 ≤ j → j ≤ ts.length →
      KeepsUp ts resolve j (moreAt last l fuel e (ts.drop j))
        (moreValueAt ts last resolve fuel l m j)) :
    KeepsUp ts resolve i (moreAt last l (fuel + 1) e (ts.drop i))
      (moreValueAt ts last resolve (fuel + 1) l m i) := by
  have hdone : KeepsUp ts resolve i (.ok (e, ts.drop i)) (.ok (m, i)) :=
    .read he (Nat.le_refl i) hi
  rw [moreValueAt]
  obtain ⟨htoken, hdrop⟩ | ⟨t, hlt, htoken, hdrop⟩ := tokenAt_cases hi
  · rw [hdrop] at hdone ⊢
    rw [moreAt_nil, htoken]
    exact hdone
  rw [hdrop] at hdone ⊢
  rw [moreAt_cons, htoken]
  simp only [bind, Except.bind]
  cases l.operation? t.symbol with
  | none => exact hdone
  | some o =>
    have hnext := hpart hlt
    simp only
    generalize parseAt last l.part fuel (ts.drop (i + 1)) = r at hnext ⊢
    generalize valueAt ts last resolve fuel l.part (i + 1) = x at hnext ⊢
    cases hnext with
    | @failed _ f heval =>
      refine .failed ?_
      have hbinary (q : Expr) (hq : q.eval resolve = .error f) :
          (Expr.binary o t.position e q).eval resolve = .error f := by
        rw [Expr.eval, he, hq]
      cases r with
      | error q => exact hbinary q heval
      | ok parsed => exact eval_moreAt_of_error fuel _ _ (hbinary _ heval)
    | @read q n j heval le inside =>
      have hbinary : (Expr.binary o t.position e q).eval resolve = o.apply t.position m n := by
        rw [Expr.eval, he, heval]
      cases happly : o.apply t.position m n with
      | error f =>
        simp only [happly, Except.mapError]
        exact .failed (eval_moreAt_of_error fuel _ _ (hbinary.trans happly))
      | ok k =>
        simp only [happly, Except.mapError]
        exact (hmore _ k j (hbinary.trans happly) le inside).mono (by omega)

theorem keepsUp_signed {r : Parsed} {x : Except Stop (Number × Nat)} (h : KeepsUp ts resolve i r x)
    (negative : Bool) :
    KeepsUp ts resolve i (signParsed negative r)
      (x.map fun (n, j) => (if negative then negate n else n, j)) := by
  cases h with
  | @failed _ f heval =>
    refine .failed ?_
    cases r with
    | error e => rw [signParsed, parsedExpr, Expr.eval, show e.eval resolve = .error f from heval]
    | ok parsed =>
      rw [signParsed, parsedExpr, Expr.eval, show parsed.1.eval resolve = .error f from heval]
  | read heval le inside => exact .read (by rw [Expr.eval, heval]) le inside

/-- A sum in parentheses, once the opening one has been read. -/
theorem keepsUp_group {r : Parsed} {x : Except Stop (Number × Nat)} (h : KeepsUp ts resolve i r x)
    (last : Nat) :
    KeepsUp ts resolve i (closeParsed last r) (x >>= fun (n, j) => do
      match ← tokenAt ts j with
      | none => throw (.fault (faultAt "Expected ')'" last))
      | some u =>
        if u.symbol = .right then return (n, j + 1)
        else throw (.fault (faultAt "Expected ')'" u.position))) := by
  cases h with
  | @failed _ f heval =>
    refine .failed ?_
    obtain e | ⟨e, _ | ⟨u, us⟩⟩ := r
    · exact heval
    · rw [closeParsed, parsedExpr, Expr.eval, show e.eval resolve = .error f from heval]
    · rw [closeParsed]
      split
      · exact heval
      · rw [parsedExpr, Expr.eval, show e.eval resolve = .error f from heval]
  | @read e n j heval le inside =>
    have hbroken (f : Fault) : (Expr.broken e f).eval resolve = .error f := by
      rw [Expr.eval, heval]
    simp only [bind, Except.bind]
    obtain ⟨htoken, hdrop⟩ | ⟨u, hlt, htoken, hdrop⟩ := tokenAt_cases inside
    · rw [htoken, hdrop]
      exact .failed (hbroken _)
    · rw [htoken, hdrop, closeParsed]
      simp only
      split
      · exact .read heval (by omega) hlt
      · exact .failed (hbroken _)

theorem keepsUp_factor (hi : i ≤ ts.length)
    (hsum : i < ts.length → KeepsUp ts resolve (i + 2)
      (parseAt last (.chain .sum) fuel (ts.drop (i + 1)))
      (valueAt ts last resolve fuel (.chain .sum) (i + 1)))
    (hfactor : i < ts.length → KeepsUp ts resolve (i + 2)
      (parseAt last .factor fuel (ts.drop (i + 1)))
      (valueAt ts last resolve fuel .factor (i + 1))) :
    KeepsUp ts resolve (i + 1) (parseAt last .factor (fuel + 1) (ts.drop i))
      (valueAt ts last resolve (fuel + 1) .factor i) := by
  rw [valueAt]
  obtain ⟨htoken, hdrop⟩ | ⟨t, hlt, htoken, hdrop⟩ := tokenAt_cases hi
  · rw [htoken, hdrop]
    exact .failed rfl
  rw [htoken, hdrop]
  obtain ⟨symbol, position⟩ := t
  cases symbol with
  | number n => exact .read rfl (Nat.le_refl _) hlt
  | placeholder name =>
    simp only [bind, Except.bind]
    cases heval : (Expr.placeholder name).eval resolve with
    | error f => exact .failed heval
    | ok n => exact .read heval (Nat.le_refl _) hlt
  | plus =>
    have h := (keepsUp_signed (hfactor hlt) false).mono (Nat.le_succ (i + 1))
    rw [← parseAt_signed last fuel _ false position] at h
    have hsame (x : Except Stop (Number × Nat)) :
        (x.map fun (n, j) => (if false then negate n else n, j)) = x := by
      cases x <;> rfl
    rw [hsame] at h
    exact h
  | minus =>
    have h := (keepsUp_signed (hfactor hlt) true).mono (Nat.le_succ (i + 1))
    rw [← parseAt_signed last fuel _ true position] at h
    exact h
  | left =>
    have h := (keepsUp_group (hsum hlt) last).mono (Nat.le_succ (i + 1))
    rw [← parseAt_group last fuel _ position] at h
    exact h
  | star => exact .failed rfl
  | slash => exact .failed rfl
  | right => exact .failed rfl

/-- Evaluation in place keeps up with the parser from every index. The induction is on the fuel, of
which there is enough for the tokens that are left. -/
theorem keepsUp_valueAt (ts : List Token) (last : Nat) (resolve : String → Except Defect Value)
    (fuel : Nat) :
    (∀ p i, i ≤ ts.length → 3 * (ts.length - i) + p.depth < fuel →
      KeepsUp ts resolve (i + 1) (parseAt last p fuel (ts.drop i)) (valueAt ts last resolve fuel p i)) ∧
    ∀ l e m i, e.eval resolve = .ok m → i ≤ ts.length → 3 * (ts.length - i) < fuel →
      KeepsUp ts resolve i (moreAt last l fuel e (ts.drop i))
        (moreValueAt ts last resolve fuel l m i) := by
  induction fuel with
  | zero => exact ⟨fun _ _ _ h => absurd h (Nat.not_lt_zero _),
      fun _ _ _ _ _ _ h => absurd h (Nat.not_lt_zero _)⟩
  | succ fuel ih =>
    obtain ⟨hvalue, hmore⟩ := ih
    refine ⟨fun p i hi hfuel => ?_, fun l e m i he hi hfuel => ?_⟩
    · cases p with
      | chain l =>
        rw [l.depth_part] at hfuel
        refine keepsUp_chain (hvalue l.part i hi (by omega)) fun e m j he hj hinside => ?_
        exact hmore l e m j he hinside (by omega)
      | factor =>
        refine keepsUp_factor hi (fun hlt => ?_) fun hlt => ?_
        · have hdepth : (Phrase.chain .sum).depth = 2 := rfl
          exact hvalue _ (i + 1) hlt (by omega)
        · have hdepth : Phrase.factor.depth = 0 := rfl
          exact hvalue _ (i + 1) hlt (by omega)
    · have hdepth := l.depth_part_le
      refine keepsUp_more he hi (fun hlt => ?_) fun e m j he hj hinside => ?_
      · exact hvalue _ (i + 1) hlt (by omega)
      · exact hmore l e m j he hinside (by omega)

/-- **Evaluation in place comes to the value of the parsed expression, or fails with its fault.** In
particular its index never leaves the tokens and the mark after them, and it ends. -/
theorem evaluateInPlace_eq (ts : List Token) (last : Nat)
    (resolve : String → Except Defect Value) :
    evaluateInPlace ts last resolve = ((parse last ts).eval resolve).mapError .fault := by
  have hkeeps := (keepsUp_valueAt ts last resolve (3 * ts.length + 3)).1 (.chain .sum) 0
    (Nat.zero_le _) (by simp only [Phrase.depth]; omega)
  rw [List.drop_zero] at hkeeps
  have hparse : parseAt last (.chain .sum) (3 * ts.length + 3) ts =
    parseSum last (3 * ts.length + 3) ts := rfl
  rw [hparse] at hkeeps
  unfold evaluateInPlace parse
  generalize parseSum last (3 * ts.length + 3) ts = r at hkeeps ⊢
  generalize valueAt ts last resolve (3 * ts.length + 3) (.chain .sum) 0 = x at hkeeps ⊢
  cases hkeeps with
  | @failed _ f heval =>
    obtain e | ⟨e, _ | ⟨u, us⟩⟩ := r
    · rw [show e.eval resolve = .error f from heval]
      rfl
    · rw [show e.eval resolve = .error f from heval]
      rfl
    · rw [Expr.eval, show e.eval resolve = .error f from heval]
      rfl
  | @read e n j heval le inside =>
    simp only [bind, Except.bind]
    obtain ⟨htoken, hdrop⟩ | ⟨u, hlt, htoken, hdrop⟩ := tokenAt_cases inside
    · rw [htoken, hdrop, heval]
      rfl
    · rw [htoken, hdrop, Expr.eval, heval]
      rfl

end

/-- **The parser evaluates the sentences of the grammar, and nothing else.** When the placeholders stand
for numbers, the tokens have a value just when they are a sentence whose parse tree has it, and they
have no other parse tree. A failure is one of expressions, and with a sentence it comes from a division
by zero or from leaving the range of numbers while its tree is evaluated. All this can be done in place,
with an index that stays on the tokens. -/
theorem parse_evaluates_sentences (ts : List Token) (last : Nat)
    {resolve : String → Except Defect Value} {number : String → Number}
    (hts : Resolves resolve number ts) :
    (∀ n, (parse last ts).eval resolve = .ok n ↔
      ∃ t : ParseTree (.chain .sum), t.tokens = ts ∧ t.value number = .ok n) ∧
    (∀ t u : ParseTree (.chain .sum), t.tokens = ts → u.tokens = ts → t = u) ∧
    (∀ f, (parse last ts).eval resolve = .error f →
      (∃ words cause, f = .expression words cause) ∧
      ∀ t : ParseTree (.chain .sum), t.tokens = ts →
        ∃ mishap, t.value number = .error mishap ∧ f = mishap.fault) ∧
    evaluateInPlace ts last resolve = ((parse last ts).eval resolve).mapError .fault := by
  -- A sentence comes to the value of its tree.
  have hsentence (t : ParseTree (.chain .sum)) (ht : t.tokens = ts) :
      (parse last ts).ComesTo resolve (t.value number) := by
    subst ht
    exact eval_parse_tokens last t hts
  refine ⟨fun n => ⟨fun hn => ?_, ?_⟩, ?_, fun f hf => ⟨?_, ?_⟩, evaluateInPlace_eq ts last resolve⟩
  · rcases parse_cases last hts with ⟨t, ht, hvalue⟩ | ⟨words, cause, hfails⟩
    · exact ⟨t, ht, hvalue.eq_ok hn⟩
    · rw [hfails] at hn
      cases hn
  · rintro ⟨t, ht, hvalue⟩
    rw [hsentence t ht, hvalue]
    rfl
  · intro t u ht hu
    exact ParseTree.eq_of_tokens (ht.trans hu.symm)
  · rcases parse_cases last hts with ⟨t, ht, hvalue⟩ | ⟨words, cause, hfails⟩
    · obtain ⟨mishap, _, rfl⟩ := hvalue.eq_error hf
      exact mishap.fault_eq
    · rw [hfails] at hf
      cases hf
      exact ⟨words, cause, rfl⟩
  · intro t ht
    exact (hsentence t ht).eq_error hf

/-- What `{x} - 2 - -(3)` is cut into. -/
def stairTokens : List Token :=
  [⟨.placeholder "x", 0⟩, ⟨.minus, 4⟩, ⟨.number (.int 2), 6⟩, ⟨.minus, 8⟩, ⟨.minus, 10⟩, ⟨.left, 11⟩,
    ⟨.number (.int 3), 12⟩, ⟨.right, 13⟩]

/-- A single number as a sum. -/
def loneTree (factor : ParseTree .factor) : ParseTree (.chain .term) :=
  .chain .term factor (.last .term)

/-- The parse tree of `stairTokens`. -/
def stairTree : ParseTree (.chain .sum) :=
  .chain .sum (loneTree (.placeholder "x" 0))
    (.next .sum true 4 (loneTree (.number (.int 2) 6))
      (.next .sum true 8
        (loneTree (.signed true 10 (.group 11 13
          (.chain .sum (loneTree (.number (.int 3) 12)) (.last .sum)))))
        (.last .sum)))

set_option maxRecDepth 4000 in
theorem stairTokens_value :
    tokenize "{x} - 2 - -(3)" = .ok stairTokens ∧
    Resolves (fun _ => .ok (.bool true)) (fun _ => .int 1) stairTokens ∧
    (parse 14 stairTokens).eval (fun _ => .ok (.bool true)) = .ok (.int 2) := by
  have hts : Resolves (fun _ => .ok (.bool true)) (fun _ => .int 1) stairTokens :=
    fun _ _ _ _ => ⟨_, rfl, rfl⟩
  refine ⟨?_, hts, ?_⟩
  · cbv
  · exact ((parse_evaluates_sentences stairTokens 14 hts).1 (.int 2)).2 ⟨stairTree, rfl, rfl⟩

end Workgraph.Arithmetic
