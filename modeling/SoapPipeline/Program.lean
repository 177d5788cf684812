/-
  SoapPipeline.Program

  Programs that ask for what lies outside of them.

  A program is either done or asks a question and goes on with the answer.
  It says nothing about how questions are answered, so a statement about a
  program that holds for all answers holds for every behaviour of what is
  asked.
-/

namespace SoapPipeline

/-- The questions that a program may ask, each with the type of its answers. -/
structure Interface where
  Question : Type
  Answer : Question → Type

/-- A program that asks questions of an interface and ends with a result. -/
inductive Program (I : Interface) (α : Type) : Type where
  | done (result : α)
  | ask (question : I.Question) (next : I.Answer question → Program I α)

namespace Program

variable {I : Interface} {α β : Type}

/-- Goes on with the result of a program. -/
def bind : Program I α → (α → Program I β) → Program I β
  | .done a, f => f a
  | .ask q next, f => .ask q fun answer => (next answer).bind f

instance : Monad (Program I) where
  pure := .done
  bind := bind

/-- Asks one question and ends with its answer. -/
def question (q : I.Question) : Program I (I.Answer q) :=
  .ask q .done

/-- Runs a program, answering its questions in a monad. -/
def run {m : Type → Type} [Monad m] (answer : (q : I.Question) → m (I.Answer q)) :
    Program I α → m α
  | .done a => pure a
  | .ask q next => do
    let a ← answer q
    (next a).run answer

end Program

end SoapPipeline
