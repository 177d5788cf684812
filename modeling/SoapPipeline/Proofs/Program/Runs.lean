/-
  SoapPipeline.Proofs.Program.Runs

  Runs of programs: what is asked, what is answered, and how it ends.

  A run fixes the answers one by one and nothing about where they come from, so
  that a statement about all runs of a program holds for every behaviour of what
  the program asks, also for one that remembers earlier questions or changes in
  between.

  Main results:
    * `Run.bind_iff`: the runs of two programs in a row;
    * `Run.unique_of_append`: the answers determine how far a run goes and how
      it ends;
    * `exists_run`: whatever is answered, a program comes to an end;
    * `Run.begun`: a run is one that has begun and has nothing left;
    * `Begun.bind_iff`: how far two programs in a row have come.
-/
import Mathlib.Data.List.Basic
import SoapPipeline.Program

namespace SoapPipeline

/-- A question of an interface and the answer that came back. -/
structure Event (I : Interface) where
  question : I.Question
  answer : I.Answer question

namespace Program

variable {I : Interface} {α β : Type}

/-- The program asks these questions, gets these answers and ends with this result. -/
inductive Run : Program I α → List (Event I) → α → Prop
  | done (a : α) : Run (.done a) [] a
  | ask {q : I.Question} {next : I.Answer q → Program I α} {answer : I.Answer q}
      {events : List (Event I)} {a : α} (h : Run (next answer) events a) :
      Run (.ask q next) (⟨q, answer⟩ :: events) a

/-- The answers are those of a behaviour, which may depend on all that was asked and answered
before. -/
def Follows (behave : List (Event I) → (q : I.Question) → I.Answer q) :
    List (Event I) → List (Event I) → Prop
  | _, [] => True
  | past, e :: rest => e.answer = behave past e.question ∧ Follows behave (past ++ [e]) rest

/-- Whatever is answered, a program comes to an end. -/
theorem exists_run (behave : List (Event I) → (q : I.Question) → I.Answer q)
    (past : List (Event I)) (p : Program I α) :
    ∃ events a, Run p events a ∧ Follows behave past events := by
  induction p generalizing past with
  | done a => exact ⟨[], a, Run.done a, trivial⟩
  | ask q next ih =>
    obtain ⟨events, a, h, hfollows⟩ :=
      ih (behave past q) (past ++ [⟨q, behave past q⟩])
    exact ⟨⟨q, behave past q⟩ :: events, a, Run.ask h, rfl, hfollows⟩

namespace Run

variable {events : List (Event I)}

theorem pure_iff {a b : α} : Run (pure a : Program I α) events b ↔ events = [] ∧ b = a := by
  constructor
  · intro h
    cases h with
    | done => exact ⟨rfl, rfl⟩
  · intro h
    obtain ⟨rfl, rfl⟩ := h
    exact Run.done b

theorem pure_pair_iff {a a' : α} {b b' : β} :
    Run (pure (a, b) : Program I (α × β)) events (a', b') ↔ events = [] ∧ a' = a ∧ b' = b := by
  rw [pure_iff, Prod.mk.injEq]

theorem ask_iff {q : I.Question} {next : I.Answer q → Program I α} {a : α} :
    Run (.ask q next) events a ↔
      ∃ answer rest, events = ⟨q, answer⟩ :: rest ∧ Run (next answer) rest a := by
  constructor
  · intro h
    cases h with
    | ask h => exact ⟨_, _, rfl, h⟩
  · intro h
    obtain ⟨answer, rest, rfl, h⟩ := h
    exact Run.ask h

/-- The runs of two programs in a row are runs of the first one with runs of the second one behind
them. -/
theorem bind_iff {p : Program I α} {f : α → Program I β} {b : β} :
    Run (p >>= f) events b ↔
      ∃ front a back, events = front ++ back ∧ Run p front a ∧ Run (f a) back b := by
  show Run (p.bind f) events b ↔ _
  -- The induction is on the first program, whose questions are asked before the second begins.
  induction p generalizing events with
  | done a =>
    constructor
    · intro h
      exact ⟨[], a, events, rfl, Run.done a, h⟩
    · intro h
      obtain ⟨front, a', back, rfl, hfront, hback⟩ := h
      cases hfront with
      | done => exact hback
  | ask q next ih =>
    show Run (.ask q fun answer => (next answer).bind f) events b ↔ _
    rw [ask_iff]
    constructor
    · intro h
      obtain ⟨answer, rest, rfl, h⟩ := h
      obtain ⟨front, a, back, rfl, hfront, hback⟩ := (ih answer).mp h
      exact ⟨⟨q, answer⟩ :: front, a, back, rfl, Run.ask hfront, hback⟩
    · intro h
      obtain ⟨front, a, back, rfl, hfront, hback⟩ := h
      obtain ⟨answer, rest, rfl, hrest⟩ := ask_iff.mp hfront
      exact ⟨answer, rest ++ back, rfl, (ih answer).mpr ⟨rest, a, back, rfl, hrest, hback⟩⟩

/-- The runs of a program that starts with a question. -/
theorem question_bind_iff {q : I.Question} {f : I.Answer q → Program I β} {b : β} :
    Run (question q >>= f) events b ↔
      ∃ answer rest, events = ⟨q, answer⟩ :: rest ∧ Run (f answer) rest b :=
  ask_iff

/-- The answers determine how far a run goes and how it ends. -/
theorem unique_of_append {p : Program I α} {front front' back back' : List (Event I)} {a a' : α}
    (h : Run p front a) (h' : Run p front' a') (heq : front ++ back = front' ++ back') :
    front = front' ∧ a = a' := by
  induction h generalizing front' with
  | done a =>
    cases h' with
    | done => exact ⟨rfl, rfl⟩
  | @ask q next answer events a _ ih =>
    -- Both runs ask the same question first, so they got the same answer and go on alike.
    obtain ⟨answer', rest, rfl, hrest⟩ := ask_iff.mp h'
    obtain ⟨hevent, htail⟩ := List.cons_eq_cons.mp heq
    obtain ⟨-, hanswer⟩ := Event.mk.inj hevent
    obtain rfl := eq_of_heq hanswer
    obtain ⟨rfl, rfl⟩ := ih hrest htail
    exact ⟨rfl, rfl⟩

/-- The answers determine how a run ends. -/
theorem unique {p : Program I α} {a a' : α} (h : Run p events a) (h' : Run p events a') :
    a = a' :=
  (h.unique_of_append h' (rfl : events ++ [] = events ++ [])).2

end Run

/-! ## Runs that are not over -/

/-- The program has asked these questions and got these answers, and this much of it is left. -/
inductive Begun : Program I α → List (Event I) → Program I α → Prop
  | here (p : Program I α) : Begun p [] p
  | ask {q : I.Question} {next : I.Answer q → Program I α} {answer : I.Answer q}
      {events : List (Event I)} {rest : Program I α} (h : Begun (next answer) events rest) :
      Begun (.ask q next) (⟨q, answer⟩ :: events) rest

/-- A run is one that has begun and has nothing left. -/
theorem Run.begun {p : Program I α} {events : List (Event I)} {a : α} (h : Run p events a) :
    Begun p events (.done a) := by
  induction h with
  | done a => exact .here _
  | ask _ ih => exact .ask ih

/-- Two programs in a row are still in the first one, or that one is over and the second has
begun. -/
theorem Begun.bind_iff {p : Program I α} {f : α → Program I β} {events : List (Event I)}
    {rest : Program I β} :
    Begun (p >>= f) events rest ↔
      (∃ left, Begun p events left ∧ rest = left >>= f) ∨
        ∃ front a back, events = front ++ back ∧ Run p front a ∧ Begun (f a) back rest := by
  show Begun (p.bind f) events rest ↔ _
  induction p generalizing events with
  | done a =>
    constructor
    · intro h
      exact Or.inr ⟨[], a, events, rfl, Run.done a, h⟩
    · intro h
      rcases h with ⟨left, hleft, rfl⟩ | ⟨front, a', back, rfl, hfront, hback⟩
      · cases hleft with
        | here => exact .here _
      · cases hfront with
        | done => exact hback
  | ask q next ih =>
    constructor
    · intro h
      cases h with
      | here => exact Or.inl ⟨_, .here _, rfl⟩
      | ask h =>
        rcases (ih _).mp h with ⟨left, hleft, hrest⟩ | ⟨front, a, back, rfl, hfront, hback⟩
        · exact Or.inl ⟨left, .ask hleft, hrest⟩
        · exact Or.inr ⟨_ :: front, a, back, rfl, Run.ask hfront, hback⟩
    · intro h
      rcases h with ⟨left, hleft, rfl⟩ | ⟨front, a, back, rfl, hfront, hback⟩
      · cases hleft with
        | here => exact .here _
        | ask hleft => exact .ask ((ih _).mpr (Or.inl ⟨left, hleft, rfl⟩))
      · obtain ⟨answer, later, rfl, hlater⟩ := Run.ask_iff.mp hfront
        exact .ask ((ih answer).mpr (Or.inr ⟨later, a, back, rfl, hlater, hback⟩))

end Program

end SoapPipeline
