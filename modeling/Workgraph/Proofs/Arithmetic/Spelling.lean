import Workgraph.Proofs.Arithmetic.Layout
import Workgraph.Proofs.Arithmetic.Parsing
/-!
# Writing and evaluating

Trees of sums, differences, products and signs over integers, and how they are written. Parentheses
stand where the shape of a tree needs them, and may stand elsewhere; with `IntExpr.print` each tree is
written with no more of them than needed. However a tree is written, the value of the text is the value
of the tree (`evaluate_spelling`): integers are exact, so no step rounds or leaves the range of numbers.
-/

namespace Workgraph.Arithmetic

/-! ## Trees over integers -/

/-- The operations on integers. -/
inductive IntOperation where
  | add
  | subtract
  | multiply
deriving DecidableEq

namespace IntOperation

/-- The chains in which an operation stands. -/
def level : IntOperation → Level
  | add | subtract => .sum
  | multiply => .term

/-- Whether it is the second operation of these chains. -/
def inverse : IntOperation → Bool
  | subtract => true
  | add | multiply => false

/-- What an operation does. -/
def onInt : IntOperation → Int → Int → Int
  | add, m, n => m + n
  | subtract, m, n => m - n
  | multiply, m, n => m * n

/-- The symbol between the operands. -/
def symbol (o : IntOperation) : Symbol := o.level.symbol o.inverse

/-- On integers an operation has a result, whatever they are. -/
theorem attempt_int (o : IntOperation) (position : Nat) (m n : Int) :
    (o.level.operation o.inverse).attempt position (.int m) (.int n) = .ok (.int (o.onInt m n)) := by
  cases o <;> rfl

end IntOperation

/-- An arithmetic tree over integers. -/
inductive IntExpr where
  | literal (n : Nat)
  | placeholder (name : String)
  | sign (negative : Bool) (e : IntExpr)
  | binary (o : IntOperation) (left right : IntExpr)

namespace IntExpr

/-- The value of a tree, when each placeholder stands for an integer. -/
def value (number : String → Int) : IntExpr → Int
  | literal n => n
  | placeholder name => number name
  | sign negative e => if negative then -e.value number else e.value number
  | binary o left right => o.onInt (left.value number) (right.value number)

/-- The placeholders of a tree. -/
def names : IntExpr → List String
  | literal _ => []
  | placeholder name => [name]
  | sign _ e => e.names
  | binary _ left right => left.names ++ right.names

/-- The symbols of a tree in the place of a phrase, with the parentheses that it needs there and any
others. -/
inductive SpelledBy : Phrase → IntExpr → List Symbol → Prop
  | literal (n : Nat) : SpelledBy .factor (literal n) [.number (.int n)]
  | placeholder (name : String) : SpelledBy .factor (placeholder name) [.placeholder name]
  | sign (negative : Bool) {e : IntExpr} {ss : List Symbol} (operand : SpelledBy .factor e ss) :
      SpelledBy .factor (sign negative e) (Level.sum.symbol negative :: ss)
  | binary (o : IntOperation) {a b : IntExpr} {ss us : List Symbol}
      (left : SpelledBy (.chain o.level) a ss) (right : SpelledBy o.level.part b us) :
      SpelledBy (.chain o.level) (binary o a b) (ss ++ o.symbol :: us)
  | part (l : Level) {e : IntExpr} {ss : List Symbol} (only : SpelledBy l.part e ss) :
      SpelledBy (.chain l) e ss
  | parentheses {e : IntExpr} {ss : List Symbol} (inner : SpelledBy (.chain .sum) e ss) :
      SpelledBy .factor e (.left :: (ss ++ [.right]))

/-- The symbols of a tree in the place of a phrase, with as few parentheses as can be. -/
def print : IntExpr → Phrase → List Symbol
  | literal n, _ => [.number (.int n)]
  | placeholder name, _ => [.placeholder name]
  | sign negative e, _ => Level.sum.symbol negative :: e.print .factor
  | binary o left right, p =>
    let bare := left.print (.chain o.level) ++ o.symbol :: right.print o.level.part
    if p = .chain .sum ∨ p = .chain o.level then bare else .left :: (bare ++ [.right])

namespace SpelledBy

variable {p : Phrase} {e : IntExpr} {ss : List Symbol}

/-- What is spelled as a factor can stand anywhere. -/
theorem ofFactor (h : SpelledBy .factor e ss) : ∀ p, SpelledBy p e ss
  | .factor => h
  | .chain .term => .part .term h
  | .chain .sum => .part .sum (.part .term h)

/-- What is spelled as a chain can stand as a sum. -/
theorem ofChain : ∀ {l : Level}, SpelledBy (.chain l) e ss → SpelledBy (.chain .sum) e ss
  | .sum, h => h
  | .term, h => .part .sum h

end SpelledBy

/-- Each tree can be written, in each place. -/
theorem spelledBy_print (e : IntExpr) (p : Phrase) : SpelledBy p e (e.print p) := by
  induction e generalizing p with
  | literal n => exact (SpelledBy.literal n).ofFactor p
  | placeholder name => exact (SpelledBy.placeholder name).ofFactor p
  | sign negative e ih => exact (SpelledBy.sign negative (ih .factor)).ofFactor p
  | binary o left right ihleft ihright =>
    have hbare := SpelledBy.binary o (ihleft (.chain o.level)) (ihright o.level.part)
    rw [print]
    split
    · rename_i hfits
      rcases hfits with rfl | rfl
      · exact hbare.ofChain
      · exact hbare
    · exact (SpelledBy.parentheses hbare.ofChain).ofFactor p

end IntExpr

/-! ## Longer chains -/

/-- The rest of a chain with one more part. -/
def ParseRest.concat (inverse : Bool) (position : Nat) : {l : Level} → ParseRest l →
    ParseTree l.part → ParseRest l
  | _, .last l, new => .next l inverse position new (.last l)
  | _, .next l i p part rest, new => .next l i p part (rest.concat inverse position new)

/-- A chain with one more part. -/
def ParseTree.concat (inverse : Bool) (position : Nat) {l : Level} :
    ParseTree (.chain l) → ParseTree l.part → ParseTree (.chain l)
  | .chain _ first rest, new => .chain l first (rest.concat inverse position new)

section
variable (inverse : Bool) (position : Nat)

theorem ParseRest.tokens_concat : ∀ {l : Level} (rest : ParseRest l) (new : ParseTree l.part),
    (rest.concat inverse position new).tokens =
      rest.tokens ++ ⟨l.symbol inverse, position⟩ :: new.tokens
  | _, .last l, new => by
    rw [concat, tokens, tokens, tokens, List.append_nil, List.nil_append]
  | _, .next l i p part rest, new => by
    rw [concat, tokens, tokens, rest.tokens_concat new, List.cons_append, List.append_assoc]

theorem ParseRest.valueFrom_concat (number : String → Number) : ∀ {l : Level} (rest : ParseRest l)
    (new : ParseTree l.part) (m : Number),
    (rest.concat inverse position new).valueFrom number m = (do
      let r ← rest.valueFrom number m
      let n ← new.value number
      (l.operation inverse).attempt position r n)
  | _, .last l, new, m => by
    simp only [concat, valueFrom]
    cases new.value number with
    | error mishap => rfl
    | ok n => exact bind_pure ((l.operation inverse).attempt position m n)
  | _, .next l i p part rest, new, m => by
    simp only [concat, valueFrom, bind_assoc]
    cases part.value number with
    | error mishap => rfl
    | ok n =>
      cases h : (l.operation i).attempt p m n with
      | error mishap => simp only [bind, Except.bind, h]
      | ok r => simpa only [bind, Except.bind, h] using rest.valueFrom_concat number new r

theorem ParseTree.tokens_concat {l : Level} (t : ParseTree (.chain l)) (new : ParseTree l.part) :
    (t.concat inverse position new).tokens =
      t.tokens ++ ⟨l.symbol inverse, position⟩ :: new.tokens := by
  cases t with
  | chain _ first rest =>
    rw [concat, tokens, tokens, rest.tokens_concat, List.append_assoc]

theorem ParseTree.value_concat (number : String → Number) {l : Level} (t : ParseTree (.chain l))
    (new : ParseTree l.part) :
    (t.concat inverse position new).value number = (do
      let r ← t.value number
      let n ← new.value number
      (l.operation inverse).attempt position r n) := by
  cases t with
  | chain _ first rest =>
    simp only [concat, value, rest.valueFrom_concat, bind_assoc]

end

/-! ## From a tree to its text and back -/

namespace IntExpr.SpelledBy

variable {p : Phrase} {e : IntExpr} {ss : List Symbol}

/-- What is spelled is a sentence: its tokens have a parse tree, with the value of the tree that was
written. -/
theorem exists_tree (h : SpelledBy p e ss) : ∀ {ts : List Token}, ts.map Token.symbol = ss →
    ∃ t : ParseTree p, t.tokens = ts ∧ ∀ number : String → Int,
      t.value (fun name => .int (number name)) = .ok (.int (e.value number)) := by
  induction h with
  | literal n =>
    intro ts hts
    obtain ⟨⟨symbol, position⟩, rfl, rfl⟩ := List.map_eq_singleton_iff.1 hts
    exact ⟨.number (.int n) position, rfl, fun _ => rfl⟩
  | placeholder name =>
    intro ts hts
    obtain ⟨⟨symbol, position⟩, rfl, rfl⟩ := List.map_eq_singleton_iff.1 hts
    exact ⟨.placeholder name position, rfl, fun _ => rfl⟩
  | sign negative operand ih =>
    intro ts hts
    obtain ⟨⟨symbol, position⟩, us, rfl, rfl, hus⟩ := List.map_eq_cons_iff.1 hts
    obtain ⟨t, rfl, hvalue⟩ := ih hus
    refine ⟨.signed negative position t, rfl, fun number => ?_⟩
    rw [ParseTree.value, hvalue]
    cases negative <;> rfl
  | binary o left right ihleft ihright =>
    -- The chain of the left operand goes on with the right one, so that chains group to the left.
    intro ts hts
    obtain ⟨us, vs, rfl, hus, hvs⟩ := List.map_eq_append_iff.1 hts
    obtain ⟨⟨symbol, position⟩, ws, rfl, rfl, hws⟩ := List.map_eq_cons_iff.1 hvs
    obtain ⟨t, rfl, hvalue⟩ := ihleft hus
    obtain ⟨u, rfl, hvalue'⟩ := ihright hws
    refine ⟨t.concat o.inverse position u, t.tokens_concat o.inverse position u, fun number => ?_⟩
    rw [t.value_concat, hvalue, hvalue']
    exact o.attempt_int position _ _
  | part l only ih =>
    intro ts hts
    obtain ⟨t, rfl, hvalue⟩ := ih hts
    refine ⟨.chain l t (.last l), List.append_nil t.tokens, fun number => ?_⟩
    rw [ParseTree.value, hvalue]
    rfl
  | parentheses inner ih =>
    intro ts hts
    obtain ⟨⟨symbol, opening⟩, us, rfl, rfl, hus⟩ := List.map_eq_cons_iff.1 hts
    obtain ⟨vs, ws, rfl, hvs, hws⟩ := List.map_eq_append_iff.1 hus
    obtain ⟨⟨symbol, closing⟩, rfl, rfl⟩ := List.map_eq_singleton_iff.1 hws
    obtain ⟨t, rfl, hvalue⟩ := ih hvs
    exact ⟨.group opening closing t, rfl, fun number => hvalue number⟩

theorem ne_nil (h : SpelledBy p e ss) : ss ≠ [] := by
  induction h with
  | part l only ih => exact ih
  | binary o left right _ _ => exact List.append_ne_nil_of_right_ne_nil _ (List.cons_ne_nil _ _)
  | _ => exact List.cons_ne_nil _ _

theorem isNumber_symbol (l : Level) (inverse : Bool) : (l.symbol inverse).isNumber = false := by
  cases l <;> cases inverse <;> rfl

/-- Numbers do not meet, if none comes right after. -/
theorem numbersApart_append (h : SpelledBy p e ss) : ∀ {us : List Symbol}, NumbersApart us →
    (∀ s ∈ us.head?, s.isNumber = false) → NumbersApart (ss ++ us) := by
  have hafter {s : Symbol} (hs : s.isNumber = false) (us : List Symbol) :
      ∀ t ∈ (s :: us).head?, t.isNumber = false := by
    rintro t ⟨⟩
    exact hs
  induction h with
  | literal n => exact fun hus hfirst => List.isChain_cons.2 ⟨fun t ht _ => hfirst t ht, hus⟩
  | placeholder name => exact fun hus _ => hus.cons rfl
  | sign negative operand ih =>
    exact fun hus hfirst => (ih hus hfirst).cons (isNumber_symbol .sum negative)
  | binary o left right ihleft ihright =>
    intro us hus hfirst
    have ho : o.symbol.isNumber = false := isNumber_symbol o.level o.inverse
    rw [List.append_assoc, List.cons_append]
    -- The operation stands between the operands, so neither meets a number.
    exact ihleft ((ihright hus hfirst).cons ho) (hafter ho _)
  | part l only ih => exact ih
  | parentheses inner ih =>
    intro us hus _
    rw [List.cons_append, List.append_assoc, List.singleton_append]
    exact NumbersApart.cons rfl (ih (hus.cons rfl) (hafter rfl us))

theorem numbersApart (h : SpelledBy p e ss) : NumbersApart ss := by
  have hnone : NumbersApart (ss ++ []) :=
    h.numbersApart_append List.IsChain.nil fun s hs => by cases hs
  rwa [List.append_nil] at hnone

theorem symbol_ne_placeholder (l : Level) (inverse : Bool) (name : String) :
    .placeholder name ≠ l.symbol inverse := by
  cases l <;> cases inverse <;> (intro h; cases h)

/-- The placeholders that are written are those of the tree. -/
theorem mem_names (h : SpelledBy p e ss) {name : String} (hname : .placeholder name ∈ ss) :
    name ∈ e.names := by
  induction h with
  | literal n => cases List.mem_singleton.1 hname
  | placeholder other =>
    cases List.mem_singleton.1 hname
    exact List.mem_singleton_self name
  | sign negative operand ih =>
    exact ih ((List.mem_cons.1 hname).resolve_left (symbol_ne_placeholder .sum negative name))
  | binary o left right ihleft ihright =>
    refine List.mem_append.2 ?_
    rcases List.mem_append.1 hname with hleft | hright
    · exact .inl (ihleft hleft)
    · exact .inr (ihright ((List.mem_cons.1 hright).resolve_left
        (symbol_ne_placeholder o.level o.inverse name)))
  | part l only ih => exact ih hname
  | parentheses inner ih =>
    rcases List.mem_append.1 ((List.mem_cons.1 hname).resolve_left (by intro h; cases h)) with h | h
    · exact ih h
    · cases List.mem_singleton.1 h

end IntExpr.SpelledBy

/-- A text with symbols in it is not empty. -/
theorem LaidOut.strip_ne_empty {ss : List Symbol} {text : String} (h : LaidOut ss text.toList)
    (hapart : NumbersApart ss) (hlength : text.toList.length ≤ maxNumeralDigits) (hss : ss ≠ []) :
    Text.strip text ≠ "" := by
  intro hstrip
  obtain ⟨ts, hts, rfl⟩ := h.tokensFrom_eq hapart hlength 0
  have hblank := Text.isBlank_of_trim_eq_nil (String.ofList_eq_empty_iff.1 hstrip)
  rw [← List.append_nil text.toList, tokensFrom_blanks hblank, tokensFrom] at hts
  cases hts
  exact hss rfl

/-- **However a tree over integers is written, its text has the value of the tree**, if the text is no
longer than texts may be and each placeholder of the tree resolves to an integer or a boolean. -/
theorem evaluate_spelling {e : IntExpr} {ss : List Symbol} {text : String}
    (hspelled : e.SpelledBy (.chain .sum) ss) (htext : LaidOut ss text.toList)
    (hlength : text.length ≤ maxLength) {resolve : String → Except Defect Value}
    {number : String → Int}
    (hresolve : ∀ name ∈ e.names, ∃ v, resolve name = .ok v ∧ v.number? = some (.int (number name))) :
    evaluate text resolve = .ok (.int (e.value number)) := by
  have hapart := hspelled.numbersApart
  have hdigits : text.toList.length ≤ maxNumeralDigits := by
    rw [String.length_toList]
    exact Nat.le_trans hlength (by decide)
  obtain ⟨ts, htokens, hsymbols⟩ := htext.tokensFrom_eq hapart hdigits 0
  obtain ⟨t, rfl, hvalue⟩ := hspelled.exists_tree hsymbols
  have hts : Resolves resolve (fun name => .int (number name)) t.tokens := by
    intro token htoken name hname
    refine hresolve name (hspelled.mem_names ?_)
    rw [← hsymbols, ← hname]
    exact List.mem_map_of_mem htoken
  have heval : (parse text.length t.tokens).eval resolve = .ok (.int (e.value number)) := by
    rw [show _ = _ from eval_parse_tokens text.length t hts, hvalue]
    rfl
  have hstrip := htext.strip_ne_empty hapart hdigits hspelled.ne_nil
  rw [evaluate, if_neg hstrip, if_neg (Nat.not_lt.2 hlength), tokenize, htokens]
  simp only [bind, Except.bind, heval]
  rfl

/-- The tree of `10 - a.b - 2 * -c`. -/
def orderTree : IntExpr :=
  .binary .subtract (.binary .subtract (.literal 10) (.placeholder "a.b"))
    (.binary .multiply (.literal 2) (.sign true (.placeholder "c")))

/-- The symbols of the tree, with parentheses that it does not need. -/
def orderSymbols : List Symbol :=
  [.number (.int 10), .minus, .placeholder "a.b", .minus, .left, .number (.int 2), .star, .minus,
    .placeholder "c", .right]

theorem spelledBy_orderSymbols : orderTree.SpelledBy (.chain .sum) orderSymbols :=
  .binary .subtract
    (.binary .subtract (.part .sum (.part .term (.literal 10))) (.part .term (.placeholder "a.b")))
    (.part .term (.parentheses (.part .sum
      (.binary .multiply (.part .term (.literal 2)) (.sign true (.placeholder "c"))))))

/-- One of the ways to lay these symbols out. -/
theorem laidOut_orderSymbols : LaidOut orderSymbols "10 - { a.b }-(2*-{c})".toList := by
  have hnone : ∀ c ∈ ([] : List Char), Text.isBlank c = true :=
    fun c hc => absurd hc List.not_mem_nil
  have hspace : ∀ c ∈ [' '], Text.isBlank c = true := List.all_eq_true.1 (by decide)
  have hten : ∀ c ∈ ['1', '0'], Text.isDecimal c = true := List.all_eq_true.1 (by decide)
  have htwo : ∀ c ∈ ['2'], Text.isDecimal c = true := List.all_eq_true.1 (by decide)
  have hletters : Text.isAlphanumeric 'a' = true ∧ Text.isAlphanumeric 'b' = true ∧
      Text.isAlphanumeric 'c' = true := by decide +kernel
  have hab : DottedName "a.b" := by
    refine ⟨[['a'], ['b']], by decide, by cbv, ?_⟩
    simp [hletters]
  have hc : DottedName "c" := by
    refine ⟨[['c']], by decide, by cbv, ?_⟩
    simp [hletters]
  exact .next [] hnone (.number ['1', '0'] (List.cons_ne_nil _ _) hten)
    (.next [' '] hspace (.mark '-' .minus rfl)
    (.next [' '] hspace (.placeholder "a.b" hab [' '] [' '] hspace hspace)
    (.next [] hnone (.mark '-' .minus rfl)
    (.next [] hnone (.mark '(' .left rfl)
    (.next [] hnone (.number ['2'] (List.cons_ne_nil _ _) htwo)
    (.next [] hnone (.mark '*' .star rfl)
    (.next [] hnone (.mark '-' .minus rfl)
    (.next [] hnone (.placeholder "c" hc [] [] hnone hnone)
    (.next [] hnone (.mark ')' .right rfl)
    (.done [] hnone))))))))))

theorem evaluate_order :
    orderTree.SpelledBy (.chain .sum) orderSymbols ∧
    LaidOut orderSymbols "10 - { a.b }-(2*-{c})".toList ∧
    evaluate "10 - { a.b }-(2*-{c})"
        (fun name => .ok (if name = "c" then .bool true else .int 3)) = .ok (.int 9) := by
  have hresolve : ∀ name ∈ orderTree.names, ∃ v,
      (.ok (if name = "c" then .bool true else .int 3) : Except Defect Value) = .ok v ∧
      v.number? = some (.int (if name = "c" then 1 else 3)) := by
    intro name _
    by_cases hname : name = "c" <;> simp [hname, Value.number?]
  refine ⟨spelledBy_orderSymbols, laidOut_orderSymbols, ?_⟩
  exact evaluate_spelling spelledBy_orderSymbols laidOut_orderSymbols (by decide) hresolve

end Workgraph.Arithmetic
