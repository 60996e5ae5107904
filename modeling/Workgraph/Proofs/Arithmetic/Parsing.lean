import Workgraph.Proofs.Arithmetic.Grammar
/-!
# Parsing and the grammar

The parser reads the phrases of the grammar. What it reads is a phrase, and the expression comes to the
value of the phrase (`reads_parseAt`); and each phrase is read to its end, wherever what follows does
not go on with it (`ParseTree.parseAt_tokens`). So all of the tokens are a sentence or the expression
fails (`parse_cases`), and sentences come to their values (`eval_parse_tokens`).
-/

namespace Workgraph.Arithmetic

/-! ## The parsing functions by phrase -/

/-- The function that parses a phrase. -/
def parseAt (last : Nat) : Phrase → Nat → List Token → Parsed
  | .chain .sum => parseSum last
  | .chain .term => parseTerm last
  | .factor => parseFactor last

/-- The function that parses the rest of a chain. -/
def moreAt (last : Nat) : Level → Nat → Expr → List Token → Parsed
  | .sum => moreSum last
  | .term => moreTerm last

section
variable (last fuel : Nat) (l : Level) (e : Expr) (ts : List Token)

theorem parseAt_zero (p : Phrase) :
    parseAt last p 0 ts = .error (.missing (.expression "Unexpected end of expression" none)) := by
  match p with
  | .chain .sum => rfl
  | .chain .term => rfl
  | .factor => rfl

theorem parseAt_chain : parseAt last (.chain l) (fuel + 1) ts =
    match parseAt last l.part fuel ts with
    | .error e => .error e
    | .ok (e, rest) => moreAt last l fuel e rest := by
  cases l with
  | sum => exact parseSum.eq_2 last ts fuel
  | term => exact parseTerm.eq_2 last ts fuel

theorem moreAt_zero : moreAt last l 0 e ts = .ok (e, ts) := by
  cases l <;> rfl

theorem moreAt_nil : moreAt last l fuel e [] = .ok (e, []) := by
  cases l <;> cases fuel <;> rfl

theorem moreAt_cons (t : Token) : moreAt last l (fuel + 1) e (t :: ts) =
    match l.operation? t.symbol with
    | none => .ok (e, t :: ts)
    | some o =>
      match parseAt last l.part fuel ts with
      | .error r => .error (.binary o t.position e r)
      | .ok (r, rest) => moreAt last l fuel (.binary o t.position e r) rest := by
  cases l with
  | sum => exact moreSum.eq_3 last e fuel t ts
  | term => exact moreTerm.eq_3 last e fuel t ts

/-- The opposite of what has been read, or the same. -/
def signParsed (negative : Bool) : Parsed → Parsed
  | .error e => .error (.sign negative e)
  | .ok (e, rest) => .ok (.sign negative e, rest)

/-- What has been read after an opening parenthesis, which is to be closed. -/
def closeParsed (last : Nat) : Parsed → Parsed
  | .error e => .error e
  | .ok (e, []) => .error (.broken e (faultAt "Expected ')'" last))
  | .ok (e, u :: rest) =>
    if u.symbol = .right then .ok (e, rest)
    else .error (.broken e (faultAt "Expected ')'" u.position))

theorem parseAt_signed (negative : Bool) (position : Nat) :
    parseAt last .factor (fuel + 1) (⟨Level.sum.symbol negative, position⟩ :: ts) =
      signParsed negative (parseAt last .factor fuel ts) := by
  simp only [parseAt]
  cases negative
  all_goals
    simp only [Level.symbol]
    rw [parseFactor]
    cases parseFactor last fuel ts <;> rfl

theorem parseAt_group (opening : Nat) :
    parseAt last .factor (fuel + 1) (⟨.left, opening⟩ :: ts) =
      closeParsed last (parseAt last (.chain .sum) fuel ts) := by
  simp only [parseAt]
  rw [parseFactor]
  cases parseSum last fuel ts with
  | error e => rfl
  | ok parsed => obtain ⟨e, _ | ⟨u, us⟩⟩ := parsed <;> rfl

end

/-! ## What is read is a phrase -/

/-- Each placeholder among the tokens resolves to a value that stands for a number. -/
def Resolves (resolve : String → Except Defect Value) (number : String → Number)
    (ts : List Token) : Prop :=
  ∀ t ∈ ts, ∀ name, t.symbol = .placeholder name →
    ∃ v, resolve name = .ok v ∧ v.number? = some (number name)

theorem Resolves.right {resolve : String → Except Defect Value} {number : String → Number}
    {ts us : List Token} (h : Resolves resolve number (ts ++ us)) : Resolves resolve number us :=
  fun t ht => h t (List.mem_append_right ts ht)

theorem Resolves.tail {resolve : String → Except Defect Value} {number : String → Number}
    {t : Token} {ts : List Token} (h : Resolves resolve number (t :: ts)) :
    Resolves resolve number ts :=
  fun u hu => h u (List.mem_cons_of_mem t hu)

/-- An expression comes to a value, or to the fault of a mishap. -/
def Expr.ComesTo (resolve : String → Except Defect Value) (e : Expr) (x : Except Mishap Number) :
    Prop :=
  e.eval resolve = x.mapError Mishap.fault

/-- An expression fails with a fault of expressions. -/
def Expr.Fails (resolve : String → Except Defect Value) (e : Expr) : Prop :=
  ∃ words cause, e.eval resolve = .error (.expression words cause)

theorem resolved_of_number? {v : Value} {n : Number} (h : v.number? = some n) (name : String) :
    resolved name v = .ok n := by
  cases v with
  | bool b => cases h; rfl
  | int k => cases h; rfl
  | real x => cases h; rfl
  | _ => cases h

section
variable {resolve : String → Except Defect Value} {number : String → Number}

theorem Mishap.fault_eq (mishap : Mishap) :
    ∃ words cause, mishap.fault = .expression words cause := by
  cases mishap with
  | divisionByZero position => exact ⟨_, _, rfl⟩
  | outOfRange position => exact ⟨_, _, rfl⟩

theorem Mishap.fails {e : Expr} {mishap : Mishap} (h : e.ComesTo resolve (.error mishap)) :
    e.Fails resolve := by
  obtain ⟨words, cause, hfault⟩ := mishap.fault_eq
  exact ⟨words, cause, h.trans (congrArg Except.error hfault)⟩

namespace Expr

variable {e l r : Expr} {x y : Except Mishap Number}

theorem ComesTo.eq_ok {n : Number} (h : e.ComesTo resolve x) (hn : e.eval resolve = .ok n) :
    x = .ok n := by
  unfold ComesTo at h
  rw [hn] at h
  cases x with
  | error mishap => cases h
  | ok m =>
    cases h
    rfl

theorem ComesTo.eq_error {f : Fault} (h : e.ComesTo resolve x) (hf : e.eval resolve = .error f) :
    ∃ mishap, x = .error mishap ∧ f = mishap.fault := by
  unfold ComesTo at h
  rw [hf] at h
  cases x with
  | error mishap =>
    cases h
    exact ⟨mishap, rfl, rfl⟩
  | ok m => cases h

theorem ComesTo.sign (h : e.ComesTo resolve x) (negative : Bool) :
    (Expr.sign negative e).ComesTo resolve
      (x >>= fun n => .ok (if negative then negate n else n)) := by
  unfold ComesTo at h ⊢
  rw [eval, h]
  cases x <;> rfl

theorem ComesTo.binary (hl : l.ComesTo resolve x) (hr : r.ComesTo resolve y) (o : Operation)
    (position : Nat) :
    (Expr.binary o position l r).ComesTo resolve
      (x >>= fun m => y >>= fun n => o.attempt position m n) := by
  unfold ComesTo at hl hr ⊢
  rw [eval, hl, hr]
  cases x with
  | error mishap => rfl
  | ok m =>
    cases y with
    | error mishap => rfl
    | ok n => exact o.apply_eq position m n

theorem Fails.sign (h : e.Fails resolve) (negative : Bool) :
    (Expr.sign negative e).Fails resolve := by
  obtain ⟨words, cause, h⟩ := h
  exact ⟨words, cause, by rw [eval, h]⟩

/-- An operation fails if its second operand does: the first has failed before, or it has a value. -/
theorem Fails.binary (hl : l.ComesTo resolve x) (hr : r.Fails resolve) (o : Operation)
    (position : Nat) : (Expr.binary o position l r).Fails resolve := by
  cases x with
  | error mishap =>
    obtain ⟨words, cause, h⟩ := Mishap.fails hl
    exact ⟨words, cause, by rw [eval, h]⟩
  | ok m =>
    obtain ⟨words, cause, h⟩ := hr
    have hm : l.eval resolve = .ok m := hl
    exact ⟨words, cause, by rw [eval, hm, h]⟩

/-- A complete expression fails where it is broken off, if it has not failed before. -/
theorem Fails.broken (he : e.ComesTo resolve x) (words : String) (cause : Option String) :
    (Expr.broken e (.expression words cause)).Fails resolve := by
  cases x with
  | error mishap =>
    obtain ⟨words', cause', h⟩ := Mishap.fails he
    exact ⟨words', cause', by rw [eval, h]⟩
  | ok m =>
    have hm : e.eval resolve = .ok m := he
    exact ⟨words, cause, by rw [eval, hm]⟩

end Expr

/-- What has been read at the start of some tokens: a phrase that spells the tokens before the rest,
and an expression that comes to the value of it; or else an expression that fails. -/
def ReadsAs {α : Type} (resolve : String → Except Defect Value) (tokens : α → List Token)
    (value : α → Except Mishap Number) (ts : List Token) : Parsed → Prop
  | .ok (e, us) => ∃ a, ts = tokens a ++ us ∧ e.ComesTo resolve (value a)
  | .error e => e.Fails resolve

/-- A phrase has been read. -/
abbrev Reads (resolve : String → Except Defect Value) (number : String → Number) (p : Phrase) :
    List Token → Parsed → Prop :=
  ReadsAs resolve (ParseTree.tokens (p := p)) (ParseTree.value number)

/-- The rest of a chain has been read, after parts that come to `x`. -/
abbrev ReadsRest (resolve : String → Except Defect Value) (number : String → Number) (l : Level)
    (x : Except Mishap Number) : List Token → Parsed → Prop :=
  ReadsAs resolve (ParseRest.tokens (l := l)) fun rest => x >>= fun m => rest.valueFrom number m

section
variable {α β : Type} {tokens : α → List Token} {value : α → Except Mishap Number}
variable {tokens' : β → List Token} {value' : β → Except Mishap Number}
variable {ts us : List Token} {r : Parsed}

/-- What has been read is part of a larger phrase, of which some tokens come before it. -/
theorem ReadsAs.extend (h : ReadsAs resolve tokens value us r) (f : α → β)
    (htokens : ∀ a vs, us = tokens a ++ vs → ts = tokens' (f a) ++ vs)
    (hvalue : ∀ a, value a = value' (f a)) : ReadsAs resolve tokens' value' ts r := by
  cases r with
  | error e => exact h
  | ok parsed =>
    obtain ⟨a, hus, he⟩ := h
    exact ⟨f a, htokens a _ hus, hvalue a ▸ he⟩

end

/-- A parsing function reads a phrase, wherever it starts. -/
def ReadsAfter (resolve : String → Except Defect Value) (number : String → Number) (p : Phrase)
    (parse : List Token → Parsed) : Prop :=
  ∀ ts, Resolves resolve number ts → Reads resolve number p ts (parse ts)

/-- A parsing function reads the rest of a chain, whatever comes before it. -/
def ReadsMoreAfter (resolve : String → Except Defect Value) (number : String → Number) (l : Level)
    (more : Expr → List Token → Parsed) : Prop :=
  ∀ e x ts, Resolves resolve number ts → e.ComesTo resolve x →
    ReadsRest resolve number l x ts (more e ts)

section
variable {last fuel : Nat} {l : Level}

theorem reads_chain {ts : List Token} (hts : Resolves resolve number ts)
    (hpart : ReadsAfter resolve number l.part (parseAt last l.part fuel))
    (hmore : ReadsMoreAfter resolve number l (moreAt last l fuel)) :
    Reads resolve number (.chain l) ts (parseAt last (.chain l) (fuel + 1) ts) := by
  have hfirst := hpart ts hts
  rw [parseAt_chain]
  cases heq : parseAt last l.part fuel ts with
  | error e =>
    rw [heq] at hfirst
    exact hfirst
  | ok parsed =>
    obtain ⟨e, us⟩ := parsed
    rw [heq] at hfirst
    obtain ⟨first, rfl, he⟩ := hfirst
    refine (hmore e _ us hts.right he).extend (ParseTree.chain l first) ?_ fun rest => rfl
    intro rest vs hus
    rw [hus, ParseTree.tokens, List.append_assoc]

/-- A symbol that joins the parts of a chain. -/
theorem Level.exists_symbol {s : Symbol} {o : Operation} (h : l.operation? s = some o) :
    ∃ inverse, s = l.symbol inverse ∧ o = l.operation inverse := by
  cases l with
  | sum =>
    cases s with
    | plus => cases h; exact ⟨false, rfl, rfl⟩
    | minus => cases h; exact ⟨true, rfl, rfl⟩
    | _ => cases h
  | term =>
    cases s with
    | star => cases h; exact ⟨false, rfl, rfl⟩
    | slash => cases h; exact ⟨true, rfl, rfl⟩
    | _ => cases h

theorem reads_rest {e : Expr} {x : Except Mishap Number} (he : e.ComesTo resolve x)
    {ts : List Token} (hts : Resolves resolve number ts)
    (hpart : ReadsAfter resolve number l.part (parseAt last l.part fuel))
    (hmore : ReadsMoreAfter resolve number l (moreAt last l fuel)) :
    ReadsRest resolve number l x ts (moreAt last l (fuel + 1) e ts) := by
  have hlast : e.ComesTo resolve (x >>= fun m => (ParseRest.last l).valueFrom number m) := by
    cases x <;> exact he
  cases ts with
  | nil =>
    rw [moreAt_nil]
    exact ⟨.last l, rfl, hlast⟩
  | cons t us =>
    rw [moreAt_cons]
    cases ho : l.operation? t.symbol with
    | none => exact ⟨.last l, rfl, hlast⟩
    | some o =>
      -- What has been read so far becomes the left side of the operation, with which the chain goes
      -- on.
      obtain ⟨inverse, hsymbol, rfl⟩ := Level.exists_symbol ho
      have hnext := hpart us hts.tail
      cases heq : parseAt last l.part fuel us with
      | error r =>
        rw [heq] at hnext
        exact Expr.Fails.binary he hnext _ _
      | ok parsed =>
        obtain ⟨r, vs⟩ := parsed
        rw [heq] at hnext
        obtain ⟨part, rfl, hr⟩ := hnext
        refine (hmore _ _ vs hts.tail.right (he.binary hr (l.operation inverse) t.position)).extend
          (ParseRest.next l inverse t.position part) ?_ ?_
        · intro rest ws hvs
          rw [hvs, ParseRest.tokens, ← hsymbol, List.cons_append, List.append_assoc]
        · intro rest
          simp only [ParseRest.valueFrom, bind_assoc]

theorem reads_signed {ts : List Token} {r : Parsed} (h : Reads resolve number .factor ts r)
    (negative : Bool) (position : Nat) :
    Reads resolve number .factor (⟨Level.sum.symbol negative, position⟩ :: ts)
      (signParsed negative r) := by
  cases r with
  | error e => exact h.sign negative
  | ok parsed =>
    obtain ⟨operand, rfl, he⟩ := h
    exact ⟨.signed negative position operand, rfl, he.sign negative⟩

theorem reads_group {ts : List Token} {r : Parsed} (h : Reads resolve number (.chain .sum) ts r)
    (last opening : Nat) :
    Reads resolve number .factor (⟨.left, opening⟩ :: ts) (closeParsed last r) := by
  cases r with
  | error e => exact h
  | ok parsed =>
    obtain ⟨e, us⟩ := parsed
    obtain ⟨inner, rfl, he⟩ := h
    cases us with
    | nil => exact Expr.Fails.broken he _ _
    | cons u us =>
      obtain ⟨symbol, closing⟩ := u
      rw [closeParsed]
      split
      · rename_i hright
        subst hright
        refine ⟨.group opening closing inner, ?_, he⟩
        simp only [ParseTree.tokens, List.cons_append, List.append_assoc, List.nil_append]
      · exact Expr.Fails.broken he _ _

theorem reads_factor {ts : List Token} (hts : Resolves resolve number ts)
    (hsum : ReadsAfter resolve number (.chain .sum) (parseAt last (.chain .sum) fuel))
    (hfactor : ReadsAfter resolve number .factor (parseAt last .factor fuel)) :
    Reads resolve number .factor ts (parseAt last .factor (fuel + 1) ts) := by
  cases ts with
  | nil => exact ⟨_, _, rfl⟩
  | cons t us =>
    obtain ⟨symbol, position⟩ := t
    cases symbol with
    | number n => exact ⟨.number n position, rfl, rfl⟩
    | placeholder name =>
      refine ⟨.placeholder name position, rfl, ?_⟩
      obtain ⟨v, hv, hn⟩ := hts _ List.mem_cons_self name rfl
      have hvalue := resolved_of_number? hn name
      show Expr.eval resolve (.placeholder name) = .ok (number name)
      rw [Expr.eval, hv]
      exact hvalue
    | plus =>
      rw [show Symbol.plus = Level.sum.symbol false from rfl, parseAt_signed]
      exact reads_signed (hfactor us hts.tail) false position
    | minus =>
      rw [show Symbol.minus = Level.sum.symbol true from rfl, parseAt_signed]
      exact reads_signed (hfactor us hts.tail) true position
    | left =>
      rw [parseAt_group]
      exact reads_group (hsum us hts.tail) last position
    -- No factor begins with one of these.
    | star => exact ⟨_, _, rfl⟩
    | slash => exact ⟨_, _, rfl⟩
    | right => exact ⟨_, _, rfl⟩

/-- The parsing functions read phrases of the grammar. The induction is on the fuel that they share. -/
theorem reads_parseAt (resolve : String → Except Defect Value) (number : String → Number)
    (last fuel : Nat) :
    (∀ p, ReadsAfter resolve number p (parseAt last p fuel)) ∧
    ∀ l, ReadsMoreAfter resolve number l (moreAt last l fuel) := by
  induction fuel with
  | zero =>
    refine ⟨fun p ts _ => ?_, fun l e x ts _ he => ?_⟩
    · rw [parseAt_zero]
      exact ⟨_, _, rfl⟩
    · rw [moreAt_zero]
      refine ⟨.last l, rfl, ?_⟩
      cases x <;> exact he
  | succ fuel ih =>
    obtain ⟨hparse, hmore⟩ := ih
    refine ⟨fun p ts hts => ?_, fun l e x ts hts he => reads_rest he hts (hparse l.part) (hmore l)⟩
    cases p with
    | chain l => exact reads_chain hts (hparse l.part) (hmore l)
    | factor => exact reads_factor hts (hparse (.chain .sum)) (hparse .factor)

end

end

/-! ## Each phrase is read -/

/-- The calls that start a phrase before it comes to its first token. -/
def Phrase.depth : Phrase → Nat
  | .chain .sum => 2
  | .chain .term => 1
  | .factor => 0

theorem Level.depth_part (l : Level) : (Phrase.chain l).depth = l.part.depth + 1 := by
  cases l <;> rfl

theorem Level.depth_part_le (l : Level) : l.part.depth ≤ 1 := by
  cases l with
  | sum => exact Nat.le_refl 1
  | term => exact Nat.zero_le 1

mutual

/-- A phrase is read to its end, if what follows does not go on with it. Three calls for each token
are enough. -/
theorem ParseTree.parseAt_tokens (last : Nat) {p : Phrase} : ∀ (t : ParseTree p) (ts : List Token)
    (fuel : Nat), p.EndsAt ts → 3 * t.tokens.length + p.depth ≤ fuel →
    ∃ e, parseAt last p fuel (t.tokens ++ ts) = .ok (e, ts)
  | .chain l first rest, ts, 0, _, hfuel => by
    rw [l.depth_part] at hfuel
    omega
  | .chain l first rest, ts, fuel + 1, hts, hfuel => by
    rw [l.depth_part, ParseTree.tokens, List.length_append] at hfuel
    obtain ⟨e, he⟩ := first.parseAt_tokens last _ fuel (hts.rest rest) (by omega)
    obtain ⟨e', he'⟩ := rest.moreAt_tokens last ts fuel hts (by omega) e
    refine ⟨e', ?_⟩
    rw [ParseTree.tokens, List.append_assoc, parseAt_chain, he]
    exact he'
  | .signed negative position operand, ts, fuel + 1, _, hfuel => by
    rw [ParseTree.tokens, List.length_cons] at hfuel
    obtain ⟨e, he⟩ := operand.parseAt_tokens last ts fuel True.intro (by omega)
    refine ⟨.sign negative e, ?_⟩
    rw [ParseTree.tokens, List.cons_append, parseAt_signed, he]
    rfl
  | .number n position, ts, fuel + 1, _, _ => ⟨.number n, rfl⟩
  | .placeholder name position, ts, fuel + 1, _, _ => ⟨.placeholder name, rfl⟩
  | .group opening closing inner, ts, fuel + 1, _, hfuel => by
    have hdepth : (Phrase.chain .sum).depth = 2 := rfl
    rw [ParseTree.tokens, List.length_cons, List.length_append, List.length_singleton] at hfuel
    obtain ⟨e, he⟩ := inner.parseAt_tokens last _ fuel (Level.endsAt_right closing ts) (by omega)
    refine ⟨e, ?_⟩
    rw [ParseTree.tokens, List.cons_append, List.append_assoc, parseAt_group]
    exact congrArg (closeParsed last) he

/-- The same for the rest of a chain. -/
theorem ParseRest.moreAt_tokens (last : Nat) {l : Level} : ∀ (r : ParseRest l) (ts : List Token)
    (fuel : Nat), l.EndsAt ts → 3 * r.tokens.length ≤ fuel → ∀ e,
    ∃ e', moreAt last l fuel e (r.tokens ++ ts) = .ok (e', ts)
  | .last l, ts, 0, _, _, e => ⟨e, moreAt_zero last l e ts⟩
  | .last l, [], fuel + 1, _, _, e => ⟨e, moreAt_nil last (fuel + 1) l e⟩
  | .last l, t :: ts, fuel + 1, hts, _, e => by
    refine ⟨e, ?_⟩
    rw [ParseRest.tokens, List.nil_append, moreAt_cons, hts.operation?_eq_none]
  | .next l inverse position part rest, ts, fuel + 1, hts, hfuel, e => by
    have hdepth := l.depth_part_le
    rw [ParseRest.tokens, List.length_cons, List.length_append] at hfuel
    obtain ⟨r, hr⟩ := part.parseAt_tokens last _ fuel (hts.rest rest) (by omega)
    obtain ⟨e', he'⟩ := rest.moreAt_tokens last ts fuel hts (by omega)
      (.binary (l.operation inverse) position e r)
    refine ⟨e', ?_⟩
    rw [ParseRest.tokens, List.cons_append, List.append_assoc, moreAt_cons, l.operation?_symbol, hr]
    exact he'

end

/-! ## Sentences -/

section
variable {resolve : String → Except Defect Value} {number : String → Number} {ts : List Token}

/-- All of the tokens are a sum, which the parsed expression comes to the value of; or they are not,
and the expression fails. -/
theorem parse_cases (last : Nat) (hts : Resolves resolve number ts) :
    (∃ t : ParseTree (.chain .sum),
      t.tokens = ts ∧ (parse last ts).ComesTo resolve (t.value number)) ∨
    (parse last ts).Fails resolve := by
  have hsum := (reads_parseAt resolve number last (3 * ts.length + 3)).1 (.chain .sum) ts hts
  simp only [parseAt] at hsum
  unfold parse
  cases heq : parseSum last (3 * ts.length + 3) ts with
  | error e =>
    rw [heq] at hsum
    exact .inr hsum
  | ok parsed =>
    obtain ⟨e, us⟩ := parsed
    rw [heq] at hsum
    obtain ⟨t, htokens, he⟩ := hsum
    cases us with
    | nil => exact .inl ⟨t, by rw [htokens, List.append_nil], he⟩
    -- The sum ends before the text does.
    | cons u us => exact .inr (Expr.Fails.broken he _ _)

/-- **A sentence is parsed, and comes to its value.** -/
theorem eval_parse_tokens (last : Nat) (t : ParseTree (.chain .sum))
    (hts : Resolves resolve number t.tokens) :
    (parse last t.tokens).ComesTo resolve (t.value number) := by
  obtain ⟨e, he⟩ := t.parseAt_tokens last [] (3 * t.tokens.length + 3)
    (Level.EndsAt.nil .sum) (by simp only [Phrase.depth]; omega)
  have hread := (reads_parseAt resolve number last (3 * t.tokens.length + 3)).1 (.chain .sum)
    t.tokens hts
  rw [List.append_nil] at he
  rw [he] at hread
  -- What has been read is a tree that spells the same tokens, so it is the same tree.
  obtain ⟨u, htokens, hu⟩ := hread
  rw [List.append_nil] at htokens
  have heq := ParseTree.eq_of_tokens htokens
  subst heq
  have hparse : parse last t.tokens = e := by
    have hsum : parseSum last (3 * t.tokens.length + 3) t.tokens = .ok (e, []) := he
    rw [parse, hsum]
  rwa [hparse]

end

end Workgraph.Arithmetic
