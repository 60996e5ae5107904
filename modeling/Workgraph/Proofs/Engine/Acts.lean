import Workgraph.Proofs.Engine.Parts
/-!
# What a node does by itself

Of the nodes that it schedules none does anything. Then a node does at most one thing that can go
wrong, and it is the first thing that it does (`Node.handler_acts`).
-/

namespace Workgraph

/-- The demand that nothing can go wrong. -/
def Demand.safe : Demand where
  fault _ _ := False
  store _ _ := False
  call _ _ := False
  fork _ := True
  fault_mono _ h := h
  store_mono _ h := h
  call_mono _ h := h

namespace Process

/-- A process that can fail with the first thing it does, if at all. If it asks the store, then
only what it may, and with the first thing it does. -/
inductive Acts (S : StoreRequest → Prop) : Process → Prop where
  | safe {p : Process} (h : p.Meets .safe []) : Acts S p
  | fail {f : Fault} : Acts S (.fail f)
  | store {request : StoreRequest} {next : Value → Process} (hstore : S request)
      (hnext : ∀ v, (next v).Meets .safe []) : Acts S (.store request next)
  | call {request : CallRequest} {next : CallAnswer → Process}
      (hnext : ∀ a, (next a).Meets .safe []) : Acts S (.call request next)

section
variable {D : Demand} {S : StoreRequest → Prop} {seen seen' : List String} {p : Process}

/-- A process in which nothing can go wrong meets every demand that leaves its forks alone. -/
theorem Meets.of_safe
    (hfork : ∀ branches, (∀ b ∈ branches, ∃ s, b.Meets .safe s) → D.fork branches)
    (h : p.Meets .safe seen) : p.Meets D seen' :=
  h.imp False.elim False.elim False.elim fun hbranches _ => hfork _ hbranches

/-- A process that acts meets every demand that allows what it may ask, and that leaves faults, calls
and its forks alone. -/
theorem Acts.meets (h : p.Acts S) (hfault : ∀ f, D.fault seen f) (hstore : ∀ r, S r → D.store seen r)
    (hcall : ∀ r, D.call seen r)
    (hfork : ∀ branches, (∀ b ∈ branches, ∃ s, b.Meets .safe s) → D.fork branches) :
    p.Meets D seen := by
  cases h with
  | safe hsafe => exact hsafe.of_safe hfork
  | fail => exact .fail (hfault _)
  | store hasks hnext => exact .store (hstore _ hasks) fun v => (hnext v).of_safe hfork
  | call hnext => exact .call (hcall _) fun a => (hnext a).of_safe hfork

end

end Process

/-- The requests of a node: it is a query, and they are about its entity and for its action, or for
nothing if it has none. -/
def Node.Requests (n : Node) (r : StoreRequest) : Prop :=
  ∃ q next, n.behaviour = .known (.databaseQuery q) next ∧ r.entity = q.entity ∧
    (q.action n.id = .ok r.action ∨ r.action = .find)

/-- **A node by itself fails with the first thing that it does, or not at all**, and only a query
asks the store. -/
theorem Node.handler_acts (n : Node) (settings : Settings) (context : Context) :
    (n.handler settings context).Acts n.Requests := by
  -- A check comes first where there is one, and nothing can go wrong after it.
  have hexcept : ∀ {α : Type} (result : Except Fault α) (p : α → Process),
      (∀ a, (p a).Acts n.Requests) → (Process.ofExcept result p).Acts n.Requests := by
    intro α result p hp
    cases result with
    | ok a => exact hp a
    | error f => exact .fail
  have hclosed : Process.Closed (Process.Meets .safe []) := Process.Meets.closed
  have hidle : ∀ id context, (runFilled (fun _ c => .done c) id context).Meets .safe [] := by
    intro id context
    exact hclosed.runFilled (fun _ _ _ => .done) context
  unfold Node.handler Behaviour.process
  cases hbehaviour : n.behaviour with
  | unknown type config => exact .safe (.warn .done)
  | known task next =>
    cases task with
    | trigger => exact .safe .done
    | output => exact .safe .done
    | condition conditions elseNode =>
      apply hexcept
      intro target
      exact .safe (hidle target context)
    | loop arrayField itemVariable loopNode maxIterations =>
      apply hexcept
      intro v
      cases v with
      | list items => exact .safe (hclosed.warnAll (hclosed.turns (hidle loopNode) _ 0 _))
      | null => exact .safe .done
      | _ => exact .safe (.warn .done)
    | parallel paths =>
      simp only [Task.process]
      split
      · exact .safe .done
      · refine .safe (.fork True.intro ?_ .done)
        intro b hb
        obtain ⟨t, -, rfl⟩ := List.mem_map.1 hb
        exact .done
    | apiCall c =>
      apply hexcept
      intro request
      exact .call fun a => .done
    | databaseQuery q =>
      simp only [Task.process, DatabaseQuery.process]
      split
      · rename_i action haction
        exact .store ⟨q, next, hbehaviour, rfl, Or.inl haction⟩ fun v => .done
      · exact .store ⟨q, next, hbehaviour, rfl, Or.inr rfl⟩ fun v => .warn .done
    | dataTransform source steps result =>
      apply hexcept
      intro v
      exact .safe .done
    | filter source conditions result =>
      apply hexcept
      intro v
      exact .safe .done
    | delay duration unit =>
      simp only [Task.process]
      generalize Binary64.less (Binary64.zero false) (delaySeconds duration unit) = waits
      cases waits with
      | true => exact .safe (.sleep .done)
      | false => exact .safe .done

end Workgraph
