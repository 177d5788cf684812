/-
  SoapPipeline.Proofs.Middleware.Admission

  No permit is lost.

  A service behind an admission layer may be cloned; its clones share the layer.  Calls
  come in through any of them and in any order, and a call that has been let through may
  end in any way: with the answer of the service, with a breakdown, or because nobody
  waits for the answer any more.  With the call its permit goes back, whatever the end.

  So the permits that are taken are those of the calls that are not over.  A call is
  turned away when these are as many as there are permits, and then it has taken nothing
  and the service knows nothing of it.

  Main results:
    * `Balanced.step`: every step takes as many permits as calls are let through, and gives
      back as many as end;
    * `Balanced.came`: what becomes of a call that comes in;
    * `permits_conserved`: after every history.
-/
import SoapPipeline.Proofs.Ahead
import SoapPipeline.Proofs.Middleware.Passing

namespace SoapPipeline

open Program

/-! ## Calls at the door -/

/-- A call that has been let through and is not over. -/
structure Guest where
  call : Nat
  /-- Which layers gave it a permit. -/
  admitted : List Bool
  /-- What is left of its way. -/
  rest : Program Service.interface Passage

/-- The layers around a service, which its clones share, and the calls that have come in. -/
structure Gate where
  layers : List Layer
  /-- All calls that have ever come in. -/
  made : List Nat
  unfinished : List Guest

/-- What takes place at the door of a service. -/
inductive Visit where
  /-- A call comes in, through any of the clones. -/
  | came (call : Nat) (request : Context)
  /-- The service gets the message of a call. -/
  | reached (call : Nat) (message : Context)
  | answered (call : Nat) (result : Except DispatchError Report)
  /-- A call ends without an answer. -/
  | dropped (call : Nat)

namespace Gate

/-- A service with so many permits, which nobody has called. -/
def new (limit : Nat) : Gate := ⟨[.admission (Permits.ofLimit limit)], [], []⟩

/-- One thing takes place. -/
inductive Step (g : Gate) : List Visit → Gate → Prop
  /-- A call that comes in is answered at once. -/
  | refuse {call : Nat} {request : Context} {p : Passage} (hfresh : call ∉ g.made)
      (hpass : Layer.pass request Service.ask g.layers = .done p) :
      Step g [.came call request, .answered call p.answer.result]
        { g with layers := Layer.takePermits g.layers p.admitted, made := call :: g.made }
  /-- A call that comes in goes on to the service. -/
  | enter {call : Nat} {request message : Context}
      {next : Answer → Program Service.interface Passage} (hfresh : call ∉ g.made)
      (hpass : Layer.pass request Service.ask g.layers = .ask message next) :
      Step g [.came call request, .reached call message]
        ⟨Layer.takePermits g.layers (Layer.admits g.layers), call :: g.made,
          ⟨call, Layer.admits g.layers, .ask message next⟩ :: g.unfinished⟩
  /-- The service answers, with a report, a fault, a deadline or an internal error. -/
  | finish {front back : List Guest} {guest : Guest} {message : Context}
      {next : Answer → Program Service.interface Passage} {answer : Answer} {p : Passage}
      (hsplit : g.unfinished = front ++ guest :: back) (hrest : guest.rest = .ask message next)
      (hanswer : answer.result ≠ .error .overloaded) (hended : next answer = .done p) :
      Step g [.answered guest.call p.answer.result]
        { g with
          layers := Layer.givePermitsBack g.layers p.admitted
          unfinished := front ++ back }
  /-- The service breaks down, or nobody waits for the answer any more. -/
  | drop {front back : List Guest} {guest : Guest}
      (hsplit : g.unfinished = front ++ guest :: back) :
      Step g [.dropped guest.call]
        { g with
          layers := Layer.givePermitsBack g.layers guest.admitted
          unfinished := front ++ back }

/-- What can have taken place at a service with so many permits. -/
inductive History (limit : Nat) : List Visit → Gate → Prop
  | new : History limit [] (new limit)
  | step {past now : List Visit} {g g' : Gate} (h : History limit past g)
      (hstep : g.Step now g') : History limit (past ++ now) g'

end Gate

/-! ## One layer -/

section OneLayer

variable {permits : Permits} {request : Context}

theorem pass_of_full (hfull : permits.limit ≤ permits.taken) :
    Layer.pass request Service.ask [.admission permits] = .done ⟨Layer.shed, [], [false]⟩ := by
  rw [Layer.pass, Permits.take?_of_full hfull]
  rfl

theorem pass_of_free (hfree : permits.taken < permits.limit) :
    Layer.pass request Service.ask [.admission permits] =
      .ask request fun answer => .done ⟨answer, [], [true]⟩ := by
  rw [Layer.pass, Permits.take?_of_free hfree]
  rfl

theorem admits_of_free (hfree : permits.taken < permits.limit) :
    Layer.admits [.admission permits] = [true] :=
  if_pos hfree

theorem takePermits_of_free (hfree : permits.taken < permits.limit) :
    Layer.takePermits [.admission permits] [true] =
      [.admission { permits with taken := permits.taken + 1 }] := by
  rw [Layer.takePermits, Permits.take?_of_free hfree]
  rfl

end OneLayer

/-! ## Permits are those of unfinished calls -/

/-- The permits that are taken are those of the calls that are not over. -/
structure Balanced (limit : Nat) (g : Gate) : Prop where
  layers : g.layers = [.admission ⟨limit, g.unfinished.length⟩]
  within : g.unfinished.length ≤ limit
  guests : ∀ guest ∈ g.unfinished, guest.admitted = [true] ∧
    ∃ message, guest.rest = .ask message fun answer => .done ⟨answer, [], [true]⟩

namespace Balanced

variable {limit : Nat} {g g' : Gate} {now : List Visit} {call : Nat} {request : Context}

theorem new : Balanced limit (Gate.new limit) :=
  ⟨rfl, Nat.zero_le limit, fun _ hmem => absurd hmem List.not_mem_nil⟩

/-- A call ends and its permit goes back. -/
theorem leave {front back : List Guest} {guest : Guest} (h : Balanced limit g)
    (hsplit : g.unfinished = front ++ guest :: back) :
    Balanced limit
      { g with
        layers := Layer.givePermitsBack g.layers [true]
        unfinished := front ++ back } := by
  have hlength : g.unfinished.length = (front ++ back).length + 1 := by
    rw [hsplit]
    simp only [List.length_append, List.length_cons]
    omega
  have hwithin := h.within
  constructor
  case layers =>
    rw [h.layers]
    show [Layer.admission ⟨limit, g.unfinished.length - 1⟩] = _
    rw [hlength]
    rfl
  case within =>
    show (front ++ back).length ≤ limit
    omega
  case guests =>
    intro other hother
    exact h.guests other (mem_of_cut hsplit hother)

/-- A call that is not over ends with what the service answers, for one permit. -/
theorem ended {guest : Guest} {message : Context} {answer : Answer} {p : Passage}
    {next : Answer → Program Service.interface Passage} (h : Balanced limit g)
    (hguest : guest ∈ g.unfinished) (hrest : guest.rest = .ask message next)
    (hended : next answer = .done p) : p = ⟨answer, [], [true]⟩ := by
  obtain ⟨-, sent, hasked⟩ := h.guests guest hguest
  rw [hasked] at hrest
  cases hrest
  cases hended
  rfl

/-- What becomes of a call that comes in. -/
theorem came (h : Balanced limit g) (hstep : g.Step (.came call request :: now) g') :
    (g.unfinished.length = limit ∧ now = [.answered call (.error .overloaded)] ∧
        g' = { g with made := call :: g.made }) ∨
      (g.unfinished.length < limit ∧ now = [.reached call request] ∧
        g' = ⟨[.admission ⟨limit, g.unfinished.length + 1⟩], call :: g.made,
          ⟨call, [true], .ask request fun answer => .done ⟨answer, [], [true]⟩⟩ ::
            g.unfinished⟩) := by
  have hwithin := h.within
  -- What the layer does is settled by the permits; the other kind of step is impossible.
  by_cases hfree : g.unfinished.length < limit
  · right
    cases hstep with
    | refuse hfresh hpass =>
      rw [h.layers, pass_of_free hfree] at hpass
      cases hpass
    | enter hfresh hpass =>
      rw [h.layers, pass_of_free hfree] at hpass
      cases hpass
      rw [h.layers, admits_of_free hfree, takePermits_of_free hfree]
      exact ⟨hfree, rfl, rfl⟩
  · left
    have hfull : limit ≤ g.unfinished.length := by omega
    cases hstep with
    | refuse hfresh hpass =>
      rw [h.layers, pass_of_full hfull] at hpass
      cases hpass
      refine ⟨by omega, rfl, ?_⟩
      -- No permit was given, so that none is taken.
      show { g with layers := Layer.takePermits g.layers [false], made := call :: g.made } = _
      rw [h.layers]
      rfl
    | enter hfresh hpass =>
      rw [h.layers, pass_of_full hfull] at hpass
      cases hpass

/-- A call that is let through has another guest's place, and one that ends leaves its own. -/
theorem step (h : Balanced limit g) (hstep : g.Step now g') : Balanced limit g' := by
  cases hstep with
  | refuse hfresh hpass =>
    rcases h.came (.refuse hfresh hpass) with ⟨-, -, heq⟩ | ⟨-, hnow, -⟩
    · rw [heq]
      exact ⟨h.layers, h.within, h.guests⟩
    · cases hnow
  | enter hfresh hpass =>
    rcases h.came (.enter hfresh hpass) with ⟨-, hnow, -⟩ | ⟨hfree, -, heq⟩
    · cases hnow
    · rw [heq]
      refine ⟨rfl, hfree, fun guest hguest => ?_⟩
      rcases List.mem_cons.mp hguest with rfl | hold
      · exact ⟨rfl, _, rfl⟩
      · exact h.guests guest hold
  | @finish front back guest message next answer p hsplit hrest hanswer hended =>
    -- The answer gives back the permit that the call was let through with.
    obtain rfl := h.ended (by simp [hsplit]) hrest hended
    exact h.leave hsplit
  | @drop front back guest hsplit =>
    obtain ⟨hadmitted, -⟩ := h.guests guest (by simp [hsplit])
    rw [hadmitted]
    exact h.leave hsplit

/-- A call may come in at any time. -/
theorem exists_step (h : Balanced limit g) (hfresh : call ∉ g.made) (request : Context) :
    ∃ now g', g.Step (.came call request :: now) g' := by
  by_cases hfree : g.unfinished.length < limit
  · have hpass : Layer.pass request Service.ask g.layers =
        .ask request fun answer => .done ⟨answer, [], [true]⟩ := by
      rw [h.layers]
      exact pass_of_free hfree
    exact ⟨_, _, .enter hfresh hpass⟩
  · have hpass : Layer.pass request Service.ask g.layers = .done ⟨Layer.shed, [], [false]⟩ := by
      rw [h.layers]
      exact pass_of_full (by simpa using hfree)
    exact ⟨_, _, .refuse hfresh hpass⟩

/-- The answer that there is no permit is given to nobody but a call that comes in. -/
theorem came_of_overloaded (h : Balanced limit g) (hstep : g.Step now g')
    (hoverloaded : .answered call (.error .overloaded) ∈ now) :
    ∃ request, .came call request ∈ now := by
  cases hstep with
  | @refuse other request p hfresh hpass =>
    have hcall : call = other := by simpa using And.left (by simpa using hoverloaded)
    exact ⟨request, by simp [hcall]⟩
  | enter hfresh hpass => simp at hoverloaded
  | @finish front back guest message next answer p hsplit hrest hanswer hended =>
    obtain rfl := h.ended (by simp [hsplit]) hrest hended
    obtain ⟨-, hresult⟩ : call = guest.call ∧ .error .overloaded = answer.result := by
      simpa using hoverloaded
    exact absurd hresult.symm hanswer
  | drop hsplit => simp at hoverloaded

theorem of_history {past : List Visit} (h : Gate.History limit past g) : Balanced limit g := by
  induction h with
  | new => exact new
  | step _ hstep ih => exact ih.step hstep

end Balanced

/-! ## Calls that are turned away -/

/-- The service has been reached by none of the calls that were turned away. -/
structure Unreached (past : List Visit) (g : Gate) : Prop where
  known : ∀ call message, .reached call message ∈ past → call ∈ g.made
  refused : ∀ call, .answered call (.error .overloaded) ∈ past →
    call ∈ g.made ∧ ∀ message, .reached call message ∉ past

namespace Unreached

variable {limit : Nat} {past now : List Visit} {g g' : Gate}

/-- What neither reaches the service nor turns a call away makes no difference. -/
theorem quiet (h : Unreached past g) (hmade : g'.made = g.made)
    (hreached : ∀ call message, .reached call message ∉ now)
    (hoverloaded : ∀ call, .answered call (.error .overloaded) ∉ now) :
    Unreached (past ++ now) g' := by
  constructor
  case known =>
    intro call message hmem
    rw [hmade]
    exact h.known call message ((List.mem_append.mp hmem).resolve_right (hreached call message))
  case refused =>
    intro call hmem
    have hold := (List.mem_append.mp hmem).resolve_right (hoverloaded call)
    obtain ⟨hcall, hunreached⟩ := h.refused call hold
    rw [hmade]
    refine ⟨hcall, fun message hmem => hunreached message ?_⟩
    exact (List.mem_append.mp hmem).resolve_right (hreached call message)

theorem step (h : Unreached past g) (hbalanced : Balanced limit g) (hstep : g.Step now g') :
    Unreached (past ++ now) g' := by
  have hcame : ∀ call, .answered call (.error .overloaded) ∈ now →
      ∃ request, .came call request ∈ now := fun _ => hbalanced.came_of_overloaded hstep
  -- An id is new when its call comes in, so that nothing has been reached or refused under it.
  cases hstep with
  | @refuse call request p hfresh hpass =>
    constructor
    case known =>
      intro other message hreached
      have hold : .reached other message ∈ past := by simpa using hreached
      exact List.mem_cons_of_mem _ (h.known other message hold)
    case refused =>
      intro other hoverloaded
      by_cases hsame : other = call
      · rw [hsame]
        refine ⟨List.mem_cons_self, fun message hreached => hfresh ?_⟩
        exact h.known call message (by simpa using hreached)
      · have hold : .answered other (.error .overloaded) ∈ past := by
          simpa [hsame] using hoverloaded
        obtain ⟨hmade, hunreached⟩ := h.refused other hold
        exact ⟨List.mem_cons_of_mem _ hmade, fun message => by simpa using hunreached message⟩
  | @enter call request message next hfresh hpass =>
    constructor
    case known =>
      intro other sent hreached
      by_cases hsame : other = call
      · rw [hsame]
        exact List.mem_cons_self
      · have hold : .reached other sent ∈ past := by simpa [hsame] using hreached
        exact List.mem_cons_of_mem _ (h.known other sent hold)
    case refused =>
      intro other hoverloaded
      obtain ⟨hmade, hunreached⟩ := h.refused other (by simpa using hoverloaded)
      have hother : other ≠ call := by
        rintro rfl
        exact hfresh hmade
      refine ⟨List.mem_cons_of_mem _ hmade, fun sent => ?_⟩
      simpa [hother] using hunreached sent
  | finish hsplit hrest hanswer hended =>
    refine h.quiet rfl (by simp) fun call hoverloaded => ?_
    obtain ⟨request, hmem⟩ := hcame call hoverloaded
    simp at hmem
  | drop hsplit => exact h.quiet rfl (by simp) (by simp)

theorem of_history (h : Gate.History limit past g) : Unreached past g := by
  induction h with
  | new => exact ⟨fun _ _ hmem => absurd hmem List.not_mem_nil,
      fun _ hmem => absurd hmem List.not_mem_nil⟩
  | step hpast hstep ih => exact ih.step (Balanced.of_history hpast) hstep

end Unreached

/-! ## Permits are conserved -/

/-- No permit is lost, and what becomes of calls that come in goes by the permits that are free. -/
structure Conserved (limit : Nat) (past : List Visit) (g : Gate) : Prop where
  /-- The permits that are free and the calls that are not over make up the limit. -/
  balance : ∃ permits, g.layers = [.admission permits] ∧ permits.limit = limit ∧
    permits.taken ≤ permits.limit ∧ permits.limit - permits.taken + g.unfinished.length = limit
  within : g.unfinished.length ≤ limit
  receptive : ∀ call request, call ∉ g.made → ∃ now g', g.Step (.came call request :: now) g'
  /-- A call is turned away exactly when as many are not over as there are permits. -/
  overloaded : ∀ call request now g', g.Step (.came call request :: now) g' →
    (.answered call (.error .overloaded) ∈ now ↔ g.unfinished.length = limit)
  /-- A call that is turned away leaves no trace but its id. -/
  refused : ∀ call request now g', g.Step (.came call request :: now) g' →
    g.unfinished.length = limit →
      now = [.answered call (.error .overloaded)] ∧ g' = { g with made := call :: g.made }
  /-- Any other call reaches the service as it came. -/
  admitted : ∀ call request now g', g.Step (.came call request :: now) g' →
    g.unfinished.length ≠ limit →
      now = [.reached call request] ∧ g'.unfinished.length = g.unfinished.length + 1
  /-- Nobody is turned away later. -/
  atTheDoor : ∀ call now g', g.Step now g' → .answered call (.error .overloaded) ∈ now →
    ∃ request, .came call request ∈ now
  unreached : ∀ call message, .answered call (.error .overloaded) ∈ past →
    .reached call message ∉ past

/-- However calls come in and end, permits are conserved. -/
theorem permits_conserved {limit : Nat} {past : List Visit} {g : Gate}
    (h : Gate.History limit past g) : Conserved limit past g := by
  have hbalanced := Balanced.of_history h
  have hwithin := hbalanced.within
  constructor
  case balance =>
    refine ⟨_, hbalanced.layers, rfl, hwithin, ?_⟩
    show limit - g.unfinished.length + g.unfinished.length = limit
    omega
  case within => exact hwithin
  case receptive => exact fun call request hfresh => hbalanced.exists_step hfresh request
  case overloaded =>
    intro call request now g' hstep
    rcases hbalanced.came hstep with ⟨hfull, rfl, -⟩ | ⟨hfree, rfl, -⟩
    · simp [hfull]
    · simp only [List.mem_singleton, reduceCtorEq, false_iff]
      omega
  case refused =>
    intro call request now g' hstep hfull
    rcases hbalanced.came hstep with ⟨-, hnow, heq⟩ | ⟨hfree, -, -⟩
    · exact ⟨hnow, heq⟩
    · omega
  case admitted =>
    intro call request now g' hstep hfree
    rcases hbalanced.came hstep with ⟨hfull, -, -⟩ | ⟨-, hnow, heq⟩
    · exact absurd hfull hfree
    · rw [heq]
      exact ⟨hnow, rfl⟩
  case atTheDoor => exact fun call now g' hstep hmem => hbalanced.came_of_overloaded hstep hmem
  case unreached =>
    intro call message hmem
    obtain ⟨-, hunreached⟩ := (Unreached.of_history h).refused call hmem
    exact hunreached message

/-- One of two calls is turned away while the other one is not over. -/
theorem second_call_refused : ∃ past g, Gate.History 1 past g ∧ Conserved 1 past g ∧
    .answered 2 (.error .overloaded) ∈ past ∧ g.unfinished.length = 1 := by
  let request : Context := default
  let guest : Guest := ⟨1, [true], .ask request fun answer => .done ⟨answer, [], [true]⟩⟩
  let first : Gate := ⟨[.admission ⟨1, 1⟩], [1], [guest]⟩
  have henter : (Gate.new 1).Step [.came 1 request, .reached 1 request] first :=
    .enter List.not_mem_nil (pass_of_free (by decide))
  have hfull : Layer.pass request Service.ask first.layers = .done ⟨Layer.shed, [], [false]⟩ :=
    pass_of_full (by decide)
  have hrefuse : first.Step [.came 2 request, .answered 2 (.error .overloaded)]
      { first with made := [2, 1] } :=
    Gate.Step.refuse (g := first) (by simp [first]) hfull
  have hpast := (Gate.History.new.step henter).step hrefuse
  exact ⟨_, _, hpast, permits_conserved hpast, by simp, rfl⟩

end SoapPipeline
