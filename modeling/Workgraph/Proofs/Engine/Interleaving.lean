import Workgraph.Proofs.Engine.Separation
/-!
# Interleaving

If the branches of each fork ask the store about different entities, it does not matter in which
order they move. A step of a process, in whichever branch, leaves what comes of the process when one
thing is done after another (`Process.Moves.alike`), and so do any number of steps
(`Process.Runs.alike`).
-/

namespace Workgraph

/-- The demand that the branches of a fork ask the store about different entities, each about those
of its part, and bring the ids of what they create. -/
def Demand.separate : Demand where
  fault _ _ := True
  store _ _ := True
  call _ _ := True
  fork branches := ∃ parts : Nat → String → Prop,
    (∀ (k : Nat) b, branches[k]? = some b →
      b.Meets (.stores fun r => parts k r.entity ∧ r.action.bringsId = true) []) ∧
    ∀ j k e, j ≠ k → parts j e → ¬ parts k e
  fault_mono _ h := h
  store_mono _ h := h
  call_mono _ h := h

/-- Two worlds have taken a step of a part and, besides, have become others elsewhere. If the part
comes to worlds that are alike from where it stood, it does so from where it has come. -/
theorem World.Abreast.square {B : String → Prop} {w w' v v' x x' y y' : World}
    (hpart : Abreast B w v x y) (hlike : x.Like x') (haside : Abreast (fun e => ¬ B e) w w' v v')
    (hpart' : Abreast B w' v' x' y') : y.Like y' := by
  constructor
  · intro e
    by_cases he : B e
    · calc y.shelf e = x.shelf e := (hpart.agrees e he).symm
        _ = x'.shelf e := hlike.shelf e
        _ = y'.shelf e := hpart'.agrees e he
    · calc y.shelf e = v.shelf e := hpart.frame' e he
        _ = v'.shelf e := haside.agrees e he
        _ = y'.shelf e := (hpart'.frame' e he).symm
  · intro k
    have hx := hlike.tally k
    have hv := haside.tally k
    have hy := hpart.tally k
    have hy' := hpart'.tally k
    omega

/-- What the calls of a transport come to, whenever they do. -/
def outcomes (transport : Transport) (request : CallRequest) : Except Fault CallAnswer :=
  (transport request).outcome

namespace Process

variable {env : Surroundings} {transport : Transport}
  {answers : CallRequest → Except Fault CallAnswer} {x y : World × Process}

theorem evaluateAll_append (before after : List Process) : ∀ w : World,
    evaluateAll env answers (before ++ after) w =
      match evaluateAll env answers before w with
      | .ok v => evaluateAll env answers after v
      | .error f => .error f := by
  induction before with
  | nil => exact fun w => rfl
  | cons b rest ih =>
    intro w
    simp only [List.cons_append, evaluateAll]
    cases b.evaluate env answers w with
    | ok r => exact ih r.1
    | error f => rfl

theorem evaluateAll_done {branches : List Process}
    (h : ∀ b ∈ branches, ∃ context, b = .done context) (w : World) :
    evaluateAll env answers branches w = .ok w := by
  induction branches with
  | nil => rfl
  | cons b rest ih =>
    obtain ⟨context, rfl⟩ := h b List.mem_cons_self
    exact ih fun b hb => h b (List.mem_cons_of_mem _ hb)

theorem evaluateAll_fails {branches : List Process} {b : Process} (hb : b ∈ branches)
    (hfails : ∀ w, ∃ f, b.evaluate env answers w = .error f) (w : World) :
    ∃ f, evaluateAll env answers branches w = .error f := by
  induction branches generalizing w with
  | nil => cases hb
  | cons first rest ih =>
    simp only [evaluateAll]
    cases hfirst : first.evaluate env answers w with
    | error f => exact ⟨f, rfl⟩
    | ok r =>
      rcases List.mem_cons.1 hb with rfl | hrest
      · obtain ⟨f, hf⟩ := hfails w
        rw [hfirst] at hf
        cases hf
      · exact ih hrest r.1

/-! ## What steps leave -/

/-- What a process that meets a demand comes to by a step meets it too, if faults are no matter and
forks whose branches have moved are as good as before. -/
theorem Moves.meets {D : Demand} (hfault : ∀ seen f, D.fault seen f)
    (hfork : ∀ {before after : List Process} {p p' : Process} {w w' : World},
      Moves env transport (w, p) (w', p') → D.fork (before ++ p :: after) →
        D.fork (before ++ p' :: after))
    (h : Moves env transport x y) : ∀ {seen}, x.2.Meets D seen → ∃ seen', seen ⊆ seen' ∧
      y.2.Meets D seen' := by
  induction h with
  | @visit id type next w =>
    intro seen hx
    cases hx with
    | visit hnext => exact ⟨id :: seen, List.subset_cons_self _ _, hnext⟩
  | warn =>
    intro seen hx
    cases hx with
    | warn hnext => exact ⟨seen, List.Subset.refl _, hnext⟩
  | answer =>
    intro seen hx
    cases hx with
    | store hstore hnext => exact ⟨seen, List.Subset.refl _, hnext _⟩
  | refuse => exact fun _ => ⟨_, List.Subset.refl _, .fail (hfault _ _)⟩
  | @call request next w =>
    intro seen hx
    cases hx with
    | call hcall hnext =>
      refine ⟨seen, List.Subset.refl _, ?_⟩
      unfold afterCall
      cases (transport request).outcome with
      | ok answer => exact hnext answer
      | error f => exact .fail (hfault _ _)
  | sleep =>
    intro seen hx
    cases hx with
    | sleep hnext => exact ⟨seen, List.Subset.refl _, hnext⟩
  | @branch before after p p' next w w' hbranch ih =>
    intro seen hx
    cases hx with
    | fork hparts hbranches hnext =>
      have hp : p.Meets D seen := hbranches p (by simp)
      obtain ⟨seen', hsub, hp'⟩ := ih hp
      refine ⟨seen', hsub, .fork (hfork hbranch hparts) ?_ (hnext.mono hsub)⟩
      intro b hb
      rcases List.mem_append.1 hb with hbefore | hb
      · exact (hbranches b (List.mem_append_left _ hbefore)).mono hsub
      · rcases List.mem_cons.1 hb with rfl | hafter
        · exact hp'
        · exact (hbranches b (by simp [hafter])).mono hsub
  | join =>
    intro seen hx
    cases hx with
    | fork hparts hbranches hnext => exact ⟨seen, List.Subset.refl _, hnext⟩
  | abort => exact fun _ => ⟨_, List.Subset.refl _, .fail (hfault _ _)⟩

/-- A step of a process that asks about some entities only comes to such a process. -/
theorem Moves.meets_stores {S : StoreRequest → Prop} {seen : List String}
    (h : Moves env transport x y) (hx : x.2.Meets (.stores S) seen) :
    y.2.Meets (.stores S) [] := by
  obtain ⟨seen', -, hy⟩ := h.meets (fun _ _ => True.intro) (fun _ _ => True.intro) hx
  exact hy.stores_mono fun _ hr => hr

/-- A step of a process leaves the shelves of which it does not ask. -/
theorem Moves.shelf {S : StoreRequest → Prop} {entity : String}
    (hS : ∀ r, S r → r.entity ≠ entity) (h : Moves env transport x y) :
    ∀ {seen}, x.2.Meets (.stores S) seen → y.1.shelf entity = x.1.shelf entity := by
  have hperform : ∀ {request : StoreRequest} {w : World} {answer repository}, S request →
      w.repository.perform env request.entity request.action = (answer, repository) →
        repository.store.shelf entity = w.repository.store.shelf entity := by
    intro request w answer repository hstore hperform
    have hother := Repository.perform_other (hS request hstore).symm env request.action w.repository
    rw [hperform] at hother
    exact hother
  induction h with
  | answer hanswer =>
    intro seen hx
    cases hx with
    | store hstore hnext => exact hperform hstore hanswer
  | refuse hanswer =>
    intro seen hx
    cases hx with
    | store hstore hnext => exact hperform hstore hanswer
  | @branch before after p p' next w w' hbranch ih =>
    intro seen hx
    cases hx with
    | fork hparts hbranches hnext => exact ih (hbranches p (by simp))
  | _ => exact fun _ => rfl

/-! ## What comes of it -/

/-- A step of a branch leaves what comes of the fork, if it does so for the branch by itself and the
branches before it ask about other entities. -/
theorem alike_branch {B : String → Prop} {before after : List Process} {p p' : Process}
    {next : Unit → Process} {w w' : World}
    (hbefore : ∀ b ∈ before, b.Meets (.stores fun r => ¬ B r.entity ∧ r.action.bringsId = true) [])
    (hp : p.Meets (.stores fun r => B r.entity ∧ r.action.bringsId = true) [])
    (hmove : Moves env transport (w, p) (w', p'))
    (halike : Alike (p.evaluate env answers w) (p'.evaluate env answers w')) :
    Alike ((fork (before ++ p :: after) next).evaluate env answers w)
      ((fork (before ++ p' :: after) next).evaluate env answers w') := by
  have hp' : p'.Meets (.stores fun r => B r.entity ∧ r.action.bringsId = true) [] :=
    hmove.meets_stores hp
  -- The step leaves what the branches before look at, and these leave what the branch looks at.
  have hstep : w.Agrees (fun e => ¬ B e) w' := by
    intro e he
    have hother : ∀ r : StoreRequest, B r.entity ∧ r.action.bringsId = true → r.entity ≠ e := by
      rintro r ⟨hr, -⟩ rfl
      exact he hr
    exact (hmove.shelf hother hp).symm
  have hfirst : (∃ f, evaluateAll env answers before w = .error f ∧
      evaluateAll env answers before w' = .error f) ∨
        ∃ v v', evaluateAll env answers before w = .ok v ∧
          evaluateAll env answers before w' = .ok v' ∧
            World.Abreast (fun e => ¬ B e) w w' v v' :=
    evaluateAll_abreast (fun b hb => (hbefore b hb).evaluate_abreast fun r hr => hr.1) w w' hstep
      (Or.inl fun r hr => hr.2)
  simp only [evaluate, evaluateAll_append]
  rcases hfirst with ⟨f, hf, hf'⟩ | ⟨v, v', hv, hv', haside⟩
  · rw [hf, hf']
    exact .fails
  · rw [hv, hv']
    simp only [evaluateAll]
    -- The branches before it have left its entities, so it comes to the same after them.
    have hpart : Level B w v (p.evaluate env answers w) (p.evaluate env answers v) :=
      hp.evaluate_abreast (fun r hr => hr.1) w v
        (fun e he => (haside.frame e (not_not_intro he)).symm) (Or.inl fun r hr => hr.2)
    have hpart' : Level B w' v' (p'.evaluate env answers w') (p'.evaluate env answers v') :=
      hp'.evaluate_abreast (fun r hr => hr.1) w' v'
        (fun e he => (haside.frame' e (not_not_intro he)).symm) (Or.inl fun r hr => hr.2)
    generalize p.evaluate env answers w = x at halike hpart
    generalize p'.evaluate env answers w' = x' at halike hpart'
    generalize p.evaluate env answers v = y at hpart
    generalize p'.evaluate env answers v' = y' at hpart'
    cases halike with
    | fails =>
      cases hpart with
      | fails =>
        cases hpart' with
        | fails => exact .fails
    | ends hlike =>
      cases hpart with
      | ends hpart =>
        cases hpart' with
        | ends hpart' => exact evaluate_rest_like after (next ()) (hpart.square hlike haside hpart')

/-- The forks of a process remain separate when a branch moves. -/
theorem separate_branch {before after : List Process} {p p' : Process} {w w' : World}
    (hmove : Moves env transport (w, p) (w', p'))
    (h : Demand.separate.fork (before ++ p :: after)) :
    Demand.separate.fork (before ++ p' :: after) := by
  obtain ⟨parts, hparts, hdisjoint⟩ := h
  refine ⟨parts, fun k b hb => ?_, hdisjoint⟩
  by_cases hk : k = before.length
  · -- The branch that has moved.
    subst hk
    obtain rfl : p' = b := by simpa using hb
    exact hmove.meets_stores (hparts before.length p (by simp))
  · refine hparts k b ?_
    rw [← hb]
    simp only [List.getElem?_append, List.getElem?_cons]
    grind

/-- **A step of a process in any of its branches leaves what comes of it** when one thing is done
after another. -/
theorem Moves.alike (h : Moves env transport x y) : ∀ {seen}, x.2.Meets .separate seen →
    Alike (x.2.evaluate env (outcomes transport) x.1)
      (y.2.evaluate env (outcomes transport) y.1) := by
  induction h with
  | answer hperform =>
    intro seen _
    simp only [evaluate, hperform]
    exact .refl _
  | refuse hperform =>
    intro seen _
    simp only [evaluate, hperform]
    exact .fails
  | @call request next w =>
    intro seen _
    unfold afterCall
    simp only [evaluate, outcomes]
    cases (transport request).outcome with
    | ok answer => exact .refl _
    | error f => exact .fails
  | @branch before after p p' next w w' hmove ih =>
    intro seen hx
    cases hx with
    | fork hfork hbranches hnext =>
      obtain ⟨parts, hparts, hdisjoint⟩ := hfork
      have hp := hparts before.length p (by simp)
      refine alike_branch (fun b hb => ?_) hp hmove (ih (hbranches p (by simp)))
      -- A branch before it is another one, so it asks about other entities.
      obtain ⟨j, hj, rfl⟩ := List.mem_iff_getElem.1 hb
      have hother := hparts j before[j] (by simp [List.getElem?_append_left hj])
      exact hother.stores_mono fun r hr => ⟨hdisjoint j _ _ (Nat.ne_of_lt hj) hr.1, hr.2⟩
  | join hdone =>
    intro seen _
    simp only [evaluate, evaluateAll_done hdone]
    exact .refl _
  | @abort branches next w f hfailed =>
    intro seen _
    -- One after another the branches come to a failure, too, maybe to that of an earlier one.
    obtain ⟨f', hf'⟩ : ∃ f', evaluateAll env (outcomes transport) branches w = .error f' :=
      evaluateAll_fails hfailed (fun w => ⟨f, rfl⟩) w
    simp only [evaluate, hf']
    exact .fails
  | _ => exact fun _ => .refl _

/-- **Whatever comes of a process comes to the same as the process** when one thing is done after
another, in whichever order the branches have moved. -/
theorem Runs.alike {seen : List String} (h : Runs env transport x y)
    (hx : x.2.Meets .separate seen) :
    Alike (x.2.evaluate env (outcomes transport) x.1)
      (y.2.evaluate env (outcomes transport) y.1) := by
  have hboth : (∃ seen', y.2.Meets .separate seen') ∧
      Alike (x.2.evaluate env (outcomes transport) x.1)
        (y.2.evaluate env (outcomes transport) y.1) := by
    induction h with
    | refl => exact ⟨⟨seen, hx⟩, .refl _⟩
    | tail _ hmove ih =>
      obtain ⟨⟨seen', hy⟩, halike⟩ := ih
      obtain ⟨seen'', -, hz⟩ := hmove.meets (fun _ _ => True.intro) separate_branch hy
      exact ⟨⟨seen'', hz⟩, halike.trans (hmove.alike hy)⟩
  exact hboth.2

end Process

end Workgraph
