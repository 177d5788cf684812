/-
  SoapPipeline.Lifecycle

  Handlers coming into use and going out of it.

  Programs over this interface ask handlers to get ready and to clean up.
-/

import SoapPipeline.Deployment
import SoapPipeline.Program

namespace SoapPipeline

namespace Lifecycle

/-- What is asked of a handler outside of messages. -/
inductive Question where
  /-- To get ready for use. -/
  | init (h : Handler)
  /-- To clean up after use. -/
  | cleanup (h : Handler)
  deriving DecidableEq, Repr

/-- Getting ready may fail; cleaning up may not. -/
abbrev Question.Answer : Question → Type
  | .init _ => Option Failure
  | .cleanup _ => Unit

/-- The interface of handlers outside of messages. -/
abbrev interface : Interface := ⟨Question, Question.Answer⟩

end Lifecycle

/-- A program that takes handlers into use and out of it. -/
abbrev Lifecycle (α : Type) : Type := Program Lifecycle.interface α

namespace Lifecycle

/-- Has a handler get ready. -/
def init (h : Handler) : Lifecycle (Option Failure) :=
  Program.question (I := interface) (.init h)

/-- Has a handler clean up. -/
def cleanup (h : Handler) : Lifecycle Unit :=
  Program.question (I := interface) (.cleanup h)

/-- Has handlers clean up, one after the other. -/
def cleanupAll : List Handler → Lifecycle Unit
  | [] => pure ()
  | h :: rest => do
    cleanup h
    cleanupAll rest

/-- Has handlers get ready one after the other.  When one fails, those that are ready
clean up, the last one first, and the failure is returned under its name.  `ready`
holds those that are ready, last one first. -/
def initFrom : List Handler → List (QName × Handler) → Lifecycle (Option (QName × Failure))
  | _, [] => pure none
  | ready, (name, h) :: rest => do
    match ← init h with
    | none => initFrom (h :: ready) rest
    | some failure =>
      cleanupAll ready
      return some (name, failure)

/-- Has handlers get ready, all or none. -/
def initAll (handlers : List (QName × Handler)) : Lifecycle (Option (QName × Failure)) :=
  initFrom [] handlers

end Lifecycle

end SoapPipeline
