/-
  SoapPipeline.Proofs.Traffic.Calls

  Which instances a message may call.

  A descriptor uses the instance that it stands for and those that its options
  hold, and flows and chains use what their descriptors use.  A message that runs
  on chains calls nothing that the chains do not use, and resolving chains brings
  no descriptor in.

  Main results:
    * `uses_of_build`: chains use what they were built from;
    * `callsOnly_handleFault`, `callsOnly_serve`: what is called for a fault, and
      on a deployment.
-/
import SoapPipeline.Dispatch
import SoapPipeline.Proofs.Chain.Partition
import SoapPipeline.Proofs.Flows

namespace SoapPipeline

/-! ## Use -/

/-- The descriptor stands for the instance, or an option holds it. -/
def Descriptor.Uses (d : Descriptor) (h : Handler) : Prop :=
  d.handler = h ∨ ∃ key, (key, OptionValue.handler h) ∈ d.options.entries

def Flows.Uses (f : Flows) (h : Handler) : Prop := ∃ d ∈ f.all, d.Uses h

def Chain.Uses (c : Chain) (h : Handler) : Prop := ∃ d ∈ c.handlers, d.Uses h

def Chains.Uses (c : Chains) (h : Handler) : Prop := ∃ flow, (c.forFlow flow).Uses h

variable {h : Handler} {d : Descriptor}

theorem Options.mem_entries_of_get? {o : Options} {key : String} {value : OptionValue}
    (hget : o.get? key = some value) : (key, value) ∈ o.entries := by
  unfold get? at hget
  obtain ⟨front, back, hsplit, -⟩ := List.lookup_eq_some_iff.mp hget
  rw [hsplit]
  exact List.mem_append_right _ List.mem_cons_self

theorem Options.mem_entries_of_faultHandler? {o : Options} {code : QName}
    (hfault : o.faultHandler? code = some h) : ∃ key, (key, OptionValue.handler h) ∈ o.entries := by
  unfold faultHandler? at hfault
  split at hfault
  next h' hget =>
    obtain rfl := Option.some.inj hfault
    exact ⟨_, mem_entries_of_get? hget⟩
  next => cases hfault

theorem Descriptor.uses_of_registeredFor? {code : QName}
    (hregistered : d.registeredFor? code = some h) : d.Uses h := by
  unfold registeredFor? at hregistered
  split at hregistered
  next h' hget =>
    obtain rfl := Option.some.inj hregistered
    exact Or.inr ⟨_, Options.mem_entries_of_get? hget⟩
  next => exact Or.inl (Option.some.inj hregistered)
  next => cases hregistered

/-- A handler to which a fault is offered is used by the handler that failed or by the fault
chain. -/
theorem uses_of_faultHandler? {code : QName} {failing : Option Descriptor} {faultChain : Chain}
    (hfault : faultHandler? code failing faultChain = some h) :
    (∃ d, failing = some d ∧ d.Uses h) ∨ faultChain.Uses h := by
  unfold faultHandler? at hfault
  split at hfault
  next h' hfailing =>
    obtain ⟨d, hd, hoption⟩ := Option.bind_eq_some_iff.mp hfailing
    obtain rfl := Option.some.inj hfault
    exact Or.inl ⟨d, hd, Or.inr (Options.mem_entries_of_faultHandler? hoption)⟩
  next =>
    obtain ⟨d, hd, hregistered⟩ := List.exists_of_findSome?_eq_some hfault
    exact Or.inr ⟨d, hd, Descriptor.uses_of_registeredFor? hregistered⟩

/-! ## What chains are built from -/

/-- Chains use nothing that neither the global handlers nor the scope's own use. -/
theorem uses_of_build {order : PhaseOrder} {scope : Scope} {globals own : Flows} {c : Chains}
    (hbuild : Chains.build order scope globals own = .ok c) (huses : c.Uses h) :
    globals.Uses h ∨ own.Uses h := by
  obtain ⟨flow, d, hd, hdh⟩ := huses
  have hmem := (Chains.handlers_perm_of_build hbuild flow).mem_iff.mp hd
  rcases List.mem_append.mp hmem with hglobal | hown
  · exact Or.inl ⟨d, Flows.mem_all_iff.mpr ⟨flow, hglobal⟩, hdh⟩
  · exact Or.inr ⟨d, Flows.mem_all_iff.mpr ⟨flow, hown⟩, hdh⟩

/-! ## Programs that call certain instances only -/

/-- Whatever is answered, the program calls only instances that it may call, asks for nothing
else, and ends as promised. -/
inductive CallsOnly {α : Type} (may : Handler → Prop) (post : α → Prop) : Exchange α → Prop
  | done {a : α} (hpost : post a) : CallsOnly may post (.done a)
  | invoke {h : Handler} {ctx : Context}
      {next : Exchange.Question.Answer (.invoke h ctx) → Exchange α} (hmay : may h)
      (hnext : ∀ answer, CallsOnly may post (next answer)) :
      CallsOnly may post (.ask (.invoke h ctx) next)
  | undo {h : Handler} {ctx : Context}
      {next : Exchange.Question.Answer (.undo h ctx) → Exchange α} (hmay : may h)
      (hnext : ∀ answer, CallsOnly may post (next answer)) :
      CallsOnly may post (.ask (.undo h ctx) next)

theorem CallsOnly.bind {α β : Type} {may : Handler → Prop} {post : α → Prop} {post' : β → Prop}
    {p : Exchange α} {f : α → Exchange β} (hp : CallsOnly may post p)
    (hf : ∀ a, post a → CallsOnly may post' (f a)) : CallsOnly may post' (p >>= f) := by
  induction hp with
  | done hpost => exact hf _ hpost
  | invoke hmay _ ih => exact invoke hmay ih
  | undo hmay _ ih => exact undo hmay ih

/-! ## What messages call -/

variable {may : Handler → Prop}

theorem callsOnly_unwind {ran : List Handler} (hran : ∀ h ∈ ran, may h) (ctx : Context) :
    CallsOnly may (fun _ => True) (Chain.unwind ran ctx) := by
  induction ran generalizing ctx with
  | nil => exact CallsOnly.done trivial
  | cons h rest ih =>
    refine CallsOnly.undo (hran h List.mem_cons_self) fun left => ?_
    exact ih (fun h' hh' => hran h' (List.mem_cons_of_mem _ hh')) left

/-- Steps call the instances of their descriptors, and one of these is reported when they fail. -/
theorem callsOnly_runSteps {descriptors : List Descriptor} (hmay : ∀ d ∈ descriptors, may d.handler)
    {steps : List (String × Descriptor)} (hsteps : ∀ step ∈ steps, step.2 ∈ descriptors)
    {ran : List Handler} (hran : ∀ h ∈ ran, may h) (ctx : Context) :
    CallsOnly may (fun result => ∀ e, result.1 = .error e → e.handler ∈ descriptors)
      (Chain.runSteps steps ran ctx) := by
  induction steps generalizing ran ctx with
  | nil => exact CallsOnly.done fun e he => nomatch he
  | cons step rest ih =>
    obtain ⟨phase, d⟩ := step
    have hd : d ∈ descriptors := hsteps _ List.mem_cons_self
    refine CallsOnly.invoke (hmay d hd) fun answer => ?_
    obtain ⟨answer, left⟩ := answer
    cases answer with
    | ok verdict =>
      cases verdict with
      | proceed =>
        show CallsOnly may _ (Chain.runSteps rest (d.handler :: ran) left)
        exact ih (fun step hstep => hsteps step (List.mem_cons_of_mem _ hstep))
          (List.forall_mem_cons.mpr ⟨hmay d hd, hran⟩) left
      | finish => exact CallsOnly.done fun e he => nomatch he
    | error fault =>
      show CallsOnly may _ ((Chain.unwind ran left).bind _)
      refine CallsOnly.bind (callsOnly_unwind hran left) fun final _ => CallsOnly.done ?_
      intro e he
      obtain rfl := Except.error.inj he
      exact hd

theorem callsOnly_execute {c : Chain} (hmay : ∀ h, c.Uses h → may h) (ctx : Context) :
    CallsOnly may (fun result => ∀ e, result.1 = .error e → e.handler ∈ c.handlers)
      (c.execute ctx) := by
  refine callsOnly_runSteps (fun d hd => hmay _ ⟨d, hd, Or.inl rfl⟩) ?_
    (fun h hh => absurd hh List.not_mem_nil) ctx
  intro step hstep
  obtain ⟨p, hp, hstep⟩ := List.mem_flatMap.mp hstep
  obtain ⟨d, hd, rfl⟩ := List.mem_map.mp hstep
  exact List.mem_flatMap.mpr ⟨p, hp, hd⟩

/-- For a fault nothing is called but what the handler that failed and the fault chain use. -/
theorem callsOnly_handleFault {faultChain : Chain} {failing : Option Descriptor}
    (hfailing : ∀ d, failing = some d → ∀ h, d.Uses h → may h)
    (hchain : ∀ h, faultChain.Uses h → may h) (fault : Fault) (ctx : Context) :
    CallsOnly may (fun _ => True) (handleFault faultChain failing fault ctx) := by
  unfold handleFault
  dsimp only
  split
  next h hfault =>
    have hh : may h := by
      rcases uses_of_faultHandler? hfault with ⟨d, hd, huses⟩ | huses
      · exact hfailing d hd h huses
      · exact hchain h huses
    refine CallsOnly.invoke hh fun answer => ?_
    obtain ⟨answer, left⟩ := answer
    cases answer with
    | ok verdict => exact CallsOnly.done trivial
    | error raised => exact CallsOnly.done trivial
  next =>
    exact CallsOnly.bind (callsOnly_execute hchain _) fun result _ => CallsOnly.done trivial

/-- On a deployment nothing is called but what its chains use. -/
theorem callsOnly_serve {lease : Lease} (hmay : ∀ h, lease.chains.Uses h → may h) (ctx : Context) :
    CallsOnly may (fun _ => True) (lease.serve ctx) := by
  have hfault : ∀ h, lease.chains.fault.Uses h → may h := fun h huses => hmay h ⟨.fault, huses⟩
  have hflow : ∀ h, (lease.chains.forFlow ctx.flow).Uses h → may h :=
    fun h huses => hmay h ⟨ctx.flow, huses⟩
  have hnobody : ∀ d, (none : Option Descriptor) = some d → ∀ h, d.Uses h → may h :=
    fun d hd => absurd hd (Option.some_ne_none d).symm
  unfold Lease.serve
  dsimp only
  split
  next =>
    refine CallsOnly.bind (callsOnly_execute hflow ctx) fun result hresult => ?_
    obtain ⟨result, left⟩ := result
    cases result with
    | ok outcome =>
      dsimp only
      split
      next => exact callsOnly_handleFault hnobody hfault _ _
      next => exact CallsOnly.done trivial
    | error e =>
      have hfailing : ∀ d, some e.handler = some d → ∀ h, d.Uses h → may h := by
        intro d hd h huses
        obtain rfl := Option.some.inj hd
        exact hflow h ⟨_, hresult e rfl, huses⟩
      exact callsOnly_handleFault hfailing hfault _ _
  next => exact callsOnly_handleFault hnobody hfault _ _

end SoapPipeline
