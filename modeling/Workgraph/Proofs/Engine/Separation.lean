import Workgraph.Proofs.Engine.Parts
import Workgraph.Proofs.Engine.Sequential
import Workgraph.Proofs.Store.Shelf
/-!
# Branches that do not meet

A process that asks the store about some entities only, and brings the ids of what it creates, comes
to the same wherever their shelves are the same, changes no other shelf, and adds the same to what is
counted (`Process.Meets.evaluate_abreast`). In worlds that are alike every process comes to the same
(`Process.evaluate_like`).
-/

namespace Workgraph

namespace World

/-- What a world holds of an entity. -/
def shelf (w : World) (entity : String) : Shelf := w.repository.store.shelf entity

/-- How often a node has been visited. -/
def visits (w : World) (id : String) : Nat := w.trace.toList.countP (·.nodeId = id)

/-- What is counted in a world: the ids drawn, and the visits of each node. -/
def tally (w : World) : Option String → Nat
  | none => w.repository.drawn
  | some id => w.visits id

/-- Two worlds hold the same of some entities. -/
def Agrees (A : String → Prop) (w w' : World) : Prop := ∀ e, A e → w.shelf e = w'.shelf e

/-- Two worlds hold the same of every entity and have counted the same. -/
structure Like (w w' : World) : Prop where
  shelf : ∀ e, w.shelf e = w'.shelf e
  tally : ∀ k, w.tally k = w'.tally k

theorem Like.symm {w w' : World} (h : w.Like w') : w'.Like w :=
  ⟨fun e => (h.shelf e).symm, fun k => (h.tally k).symm⟩

theorem Like.trans {w w' w'' : World} (h : w.Like w') (h' : w'.Like w'') : w.Like w'' :=
  ⟨fun e => (h.shelf e).trans (h'.shelf e), fun k => (h.tally k).trans (h'.tally k)⟩

/-- Two worlds have become two others, which still hold the same of some entities, and of other
entities what they held before. What has been counted meanwhile is the same. -/
structure Abreast (A : String → Prop) (w w' v v' : World) : Prop where
  agrees : v.Agrees A v'
  frame : ∀ e, ¬ A e → v.shelf e = w.shelf e
  frame' : ∀ e, ¬ A e → v'.shelf e = w'.shelf e
  tally : ∀ k, v.tally k + w'.tally k = v'.tally k + w.tally k

namespace Abreast

variable {A : String → Prop} {w w' v v' u u' : World}

theorem refl (h : w.Agrees A w') : Abreast A w w' w w' :=
  ⟨h, fun _ _ => rfl, fun _ _ => rfl, fun _ => Nat.add_comm _ _⟩

theorem trans (h : Abreast A w w' v v') (h' : Abreast A v v' u u') : Abreast A w w' u u' := by
  refine ⟨h'.agrees, fun e he => (h'.frame e he).trans (h.frame e he),
    fun e he => (h'.frame' e he).trans (h.frame' e he), fun k => ?_⟩
  have hfirst := h.tally k
  have hthen := h'.tally k
  omega

theorem enter (h : w.Agrees A w') (env : Surroundings) (id type : String) :
    Abreast A w w' (w.enter env id type) (w'.enter env id type) := by
  refine ⟨h, fun _ _ => rfl, fun _ _ => rfl, fun k => ?_⟩
  cases k with
  | none => exact Nat.add_comm _ _
  | some i =>
    simp only [World.tally, visits, World.enter, Array.toList_push, List.countP_append]
    omega

theorem notify (h : w.Agrees A w') (words : String) :
    Abreast A w w' (w.notify .warning words) (w'.notify .warning words) :=
  ⟨h, fun _ _ => rfl, fun _ _ => rfl, fun k => by cases k <;> exact Nat.add_comm _ _⟩

theorem remember (h : w.Agrees A w') (request : CallRequest) :
    Abreast A w w' (w.remember request) (w'.remember request) :=
  ⟨h, fun _ _ => rfl, fun _ _ => rfl, fun k => by cases k <;> exact Nat.add_comm _ _⟩

/-- The same is asked about an entity of which both worlds hold the same. -/
theorem store (h : w.Agrees A w') (env : Surroundings) {request : StoreRequest}
    (hA : A request.entity)
    (hdraws : request.action.bringsId = true ∨ w.repository.drawn = w'.repository.drawn) :
    (w.repository.perform env request.entity request.action).1 =
        (w'.repository.perform env request.entity request.action).1 ∧
      Abreast A w w'
        { w with repository := (w.repository.perform env request.entity request.action).2 }
        { w' with repository := (w'.repository.perform env request.entity request.action).2 } := by
  obtain ⟨hanswer, hshelf⟩ := w.repository.perform_shelf env request.entity request.action
  obtain ⟨hanswer', hshelf'⟩ := w'.repository.perform_shelf env request.entity request.action
  have hsame : w.repository.store.shelf request.entity = w'.repository.store.shelf request.entity :=
    h _ hA
  have hperform : (w.repository.store.shelf request.entity).perform env request.entity
      w.repository.drawn request.action =
        (w'.repository.store.shelf request.entity).perform env request.entity
          w'.repository.drawn request.action := by
    rw [hsame]
    rcases hdraws with hbrings | hdrawn
    · exact Shelf.perform_of_bringsId hbrings env _ _ _ _
    · rw [hdrawn]
  -- What is asked is answered by the shelf alone, so the answers are the same, and the shelves
  -- then.
  rw [hperform] at hanswer hshelf
  refine ⟨hanswer.trans hanswer'.symm, fun e he => ?_, fun e he => ?_, fun e he => ?_, fun k => ?_⟩
  · by_cases heq : e = request.entity
    · rw [heq]
      exact hshelf.trans hshelf'.symm
    · have hother := Repository.perform_other heq env request.action w.repository
      have hother' := Repository.perform_other heq env request.action w'.repository
      exact hother.trans ((h e he).trans hother'.symm)
  · have hne : e ≠ request.entity := fun heq => he (heq ▸ hA)
    exact Repository.perform_other hne env request.action w.repository
  · have hne : e ≠ request.entity := fun heq => he (heq ▸ hA)
    exact Repository.perform_other hne env request.action w'.repository
  · cases k with
    | none =>
      simp only [World.tally, Repository.perform_drawn, hsame]
      omega
    | some id => exact Nat.add_comm _ _

/-- Worlds that were alike, and have agreed on every entity since, are alike. -/
theorem like (h : Abreast (fun _ => True) w w' v v') (htally : ∀ k, w.tally k = w'.tally k) :
    v.Like v' := by
  refine ⟨fun e => h.agrees e True.intro, fun k => ?_⟩
  have hcount := h.tally k
  have hbefore := htally k
  omega

end Abreast

end World

/-! ## Local processes -/

/-- The demand that the store is only asked certain things. -/
def Demand.stores (S : StoreRequest → Prop) : Demand where
  fault _ _ := True
  store _ r := S r
  call _ _ := True
  fork _ := True
  fault_mono _ h := h
  store_mono _ h := h
  call_mono _ h := h

namespace Process

variable {env : Surroundings} {answers : CallRequest → Except Fault CallAnswer}
  {A : String → Prop} {S : StoreRequest → Prop} {seen : List String} {p : Process}

/-- What is asked does not depend on how many ids have been drawn, or as many have been. -/
def SameDraws (S : StoreRequest → Prop) (w w' : World) : Prop :=
  (∀ r, S r → r.action.bringsId = true) ∨ w.repository.drawn = w'.repository.drawn

theorem SameDraws.abreast {w w' v v' : World} (h : SameDraws S w w')
    (habreast : World.Abreast A w w' v v') : SameDraws S v v' := by
  rcases h with hbrings | hdrawn
  · exact Or.inl hbrings
  · have hcount := habreast.tally none
    simp only [World.tally] at hcount
    exact Or.inr (by omega)

/-- Two outcomes are of the same kind, and their worlds come from two worlds abreast. -/
inductive Level (A : String → Prop) (w w' : World) :
    Except Fault (World × Context) → Except Fault (World × Context) → Prop where
  | fails {f : Fault} : Level A w w' (.error f) (.error f)
  | ends {v v' : World} {context : Context} (h : World.Abreast A w w' v v') :
      Level A w w' (.ok (v, context)) (.ok (v', context))

theorem Level.after {w w' v v' : World} {x y : Except Fault (World × Context)}
    (h : World.Abreast A w w' v v') (hlevel : Level A v v' x y) : Level A w w' x y := by
  cases hlevel with
  | fails => exact .fails
  | ends habreast => exact .ends (h.trans habreast)

/-- Several processes come to the same if each of them does. -/
theorem evaluateAll_abreast {branches : List Process}
    (h : ∀ b ∈ branches, ∀ w w' : World, w.Agrees A w' → SameDraws S w w' →
      Level A w w' (b.evaluate env answers w) (b.evaluate env answers w')) :
    ∀ w w' : World, w.Agrees A w' → SameDraws S w w' →
      (∃ f, evaluateAll env answers branches w = .error f ∧
        evaluateAll env answers branches w' = .error f) ∨
      ∃ v v', evaluateAll env answers branches w = .ok v ∧
        evaluateAll env answers branches w' = .ok v' ∧ World.Abreast A w w' v v' := by
  induction branches with
  | nil => exact fun w w' hw _ => Or.inr ⟨w, w', rfl, rfl, .refl hw⟩
  | cons b rest ih =>
    intro w w' hw hdraws
    have hfirst := h b List.mem_cons_self w w' hw hdraws
    simp only [evaluateAll]
    generalize b.evaluate env answers w = x at hfirst
    generalize b.evaluate env answers w' = y at hfirst
    cases hfirst with
    | fails => exact Or.inl ⟨_, rfl, rfl⟩
    | @ends v v' context hstep =>
      rcases ih (fun b hb => h b (List.mem_cons_of_mem _ hb)) v v' hstep.agrees
        (hdraws.abreast hstep) with hfails | ⟨u, u', hu, hu', hthen⟩
      · exact Or.inl hfails
      · exact Or.inr ⟨u, u', hu, hu', hstep.trans hthen⟩

/-- **A process that asks about some entities only comes to the same wherever their shelves are the
same**, and leaves the other shelves. -/
theorem Meets.evaluate_abreast (hS : ∀ r, S r → A r.entity) (h : p.Meets (.stores S) seen) :
    ∀ w w' : World, w.Agrees A w' → SameDraws S w w' →
      Level A w w' (p.evaluate env answers w) (p.evaluate env answers w') := by
  -- By induction on what the process meets. Each step keeps the worlds abreast, and what follows
  -- starts from there.
  induction h with
  | done => exact fun w w' hw _ => .ends (.refl hw)
  | fail => exact fun w w' _ _ => .fails
  | @visit seen id type next _ ih =>
    intro w w' hw hdraws
    have hstep := World.Abreast.enter hw env id type
    exact (ih _ _ hstep.agrees (hdraws.abreast hstep)).after hstep
  | @warn seen words next _ ih =>
    intro w w' hw hdraws
    have hstep := World.Abreast.notify hw words
    exact (ih _ _ hstep.agrees (hdraws.abreast hstep)).after hstep
  | @store seen request next hstore _ ih =>
    intro w w' hw hdraws
    -- Where an id is brought it does not matter how many have been drawn.
    have hdraws' : request.action.bringsId = true ∨ w.repository.drawn = w'.repository.drawn :=
      hdraws.imp (fun h => h request hstore) id
    obtain ⟨hanswer, hstep⟩ := World.Abreast.store hw env (hS request hstore) hdraws'
    simp only [evaluate]
    rcases hr : w.repository.perform env request.entity request.action with ⟨answer, repository⟩
    rcases hr' : w'.repository.perform env request.entity request.action with
      ⟨answer', repository'⟩
    rw [hr, hr'] at hanswer hstep
    obtain rfl : answer = answer' := hanswer
    cases answer with
    | ok v => exact (ih v _ _ hstep.agrees (hdraws.abreast hstep)).after hstep
    | error f => exact .fails
  | @call seen request next _ _ ih =>
    intro w w' hw hdraws
    have hstep := World.Abreast.remember hw request
    simp only [evaluate]
    cases answers request with
    | ok answer => exact (ih answer _ _ hstep.agrees (hdraws.abreast hstep)).after hstep
    | error f => exact .fails
  | sleep _ ih => exact ih
  | @fork seen branches next _ _ _ ihbranches ih =>
    intro w w' hw hdraws
    simp only [evaluate]
    rcases evaluateAll_abreast ihbranches w w' hw hdraws with
      ⟨f, hf, hf'⟩ | ⟨v, v', hv, hv', hstep⟩
    · rw [hf, hf']
      exact .fails
    · rw [hv, hv']
      exact (ih v v' hstep.agrees (hdraws.abreast hstep)).after hstep

theorem Meets.stores_mono {S' : StoreRequest → Prop} {seen' : List String}
    (h : p.Meets (.stores S) seen) (hS : ∀ r, S r → S' r) : p.Meets (.stores S') seen' :=
  h.imp (fun _ => True.intro) (fun hr => hS _ hr) (fun _ => True.intro) fun _ _ => True.intro

/-- Every process asks the store something or nothing. -/
theorem meets_stores_any (p : Process) (seen : List String) :
    p.Meets (.stores fun _ => True) seen := by
  induction p generalizing seen with
  | done context => exact .done
  | fail f => exact .fail True.intro
  | visit id type next ih => exact .visit (ih () _)
  | warn words next ih => exact .warn (ih () _)
  | store request next ih => exact .store True.intro fun v => ih v _
  | call request next ih => exact .call True.intro fun a => ih a _
  | sleep seconds next ih => exact .sleep (ih () _)
  | fork branches next ihbranches ih =>
    exact .fork True.intro (fun b hb => ihbranches b hb _) (ih () _)

/-! ## Outcomes -/

/-- Two outcomes are failures, or the same variables in worlds that are alike. -/
inductive Alike : Except Fault (World × Context) → Except Fault (World × Context) → Prop where
  | fails {f f' : Fault} : Alike (.error f) (.error f')
  | ends {w w' : World} {context : Context} (h : w.Like w') :
      Alike (.ok (w, context)) (.ok (w', context))

namespace Alike

variable {x y z : Except Fault (World × Context)}

theorem refl (x : Except Fault (World × Context)) : Alike x x := by
  cases x with
  | ok r => exact .ends ⟨fun _ => rfl, fun _ => rfl⟩
  | error f => exact .fails

theorem symm (h : Alike x y) : Alike y x := by
  cases h with
  | fails => exact .fails
  | ends hlike => exact .ends hlike.symm

theorem trans (h : Alike x y) (h' : Alike y z) : Alike x z := by
  cases h with
  | fails =>
    cases h' with
    | fails => exact .fails
  | ends hlike =>
    cases h' with
    | ends hlike' => exact .ends (hlike.trans hlike')

end Alike

/-- A process comes to the same in worlds that are alike. -/
theorem evaluate_like (p : Process) {w w' : World} (h : w.Like w') :
    Alike (p.evaluate env answers w) (p.evaluate env answers w') := by
  -- Alike worlds agree on every entity, so no frame is left.
  have hlevel : Level (fun _ => True) w w' (p.evaluate env answers w)
      (p.evaluate env answers w') :=
    (meets_stores_any p []).evaluate_abreast (fun _ _ => True.intro) w w' (fun e _ => h.shelf e)
      (Or.inr (h.tally none))
  generalize p.evaluate env answers w = x at hlevel
  generalize p.evaluate env answers w' = y at hlevel
  cases hlevel with
  | fails => exact .fails
  | ends habreast => exact .ends (habreast.like h.tally)

/-- The rest of a fork comes to the same in worlds that are alike. -/
theorem evaluate_rest_like (branches : List Process) (next : Process) : ∀ {w w' : World},
    w.Like w' → Alike
      (match evaluateAll env answers branches w with
        | .ok v => next.evaluate env answers v
        | .error f => .error f)
      (match evaluateAll env answers branches w' with
        | .ok v => next.evaluate env answers v
        | .error f => .error f) := by
  induction branches with
  | nil => exact fun h => evaluate_like next h
  | cons b rest ih =>
    intro w w' h
    have hfirst : Alike (b.evaluate env answers w) (b.evaluate env answers w') := evaluate_like b h
    simp only [evaluateAll]
    generalize b.evaluate env answers w = x at hfirst
    generalize b.evaluate env answers w' = y at hfirst
    cases hfirst with
    | fails => exact .fails
    | ends hlike => exact ih hlike

end Process

end Workgraph
