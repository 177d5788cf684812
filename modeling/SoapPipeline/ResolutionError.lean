/-
  SoapPipeline.ResolutionError

  Why rules do not give an order of handlers.
-/

import SoapPipeline.Text.Quoted

namespace SoapPipeline

/-- The ways in which a rule contradicts itself or another rule. -/
inductive Conflict where
  | noPhase
  | selfReference
  | sameOnBothSides
  | notAlone
  /-- The rule names one phase and the handler was put into another. -/
  | wrongPhase (target phase : String)
  | firstAfter (reference : String)
  | afterLast (reference : String)
  | lastBefore (reference : String)
  | beforeFirst (reference : String)
  deriving DecidableEq, Repr

/-- The message that reports a conflict. -/
def Conflict.message : Conflict → String
  | .noPhase => "no target phase"
  | .selfReference => "handler refers to itself"
  | .sameOnBothSides => "same handler named in before and after"
  | .notAlone => "a phase-first and phase-last handler must be alone in its phase"
  | .wrongPhase target phase =>
    "targets phase " ++ Text.quoted target ++ " but was resolved into " ++ Text.quoted phase
  | .firstAfter reference => "phase-first handler cannot run after " ++ reference
  | .afterLast reference => "cannot run after phase-last handler " ++ reference
  | .lastBefore reference => "phase-last handler cannot run before " ++ reference
  | .beforeFirst reference => "cannot run before phase-first handler " ++ reference

/-- Why handlers could not be put into phases and ordered there. -/
inductive ResolutionError where
  | undeclaredPhase (handler phase : String)
  | duplicatePhase (phase : String)
  | duplicateHandler (phase handler : String)
  | unknownHandler (phase handler reference : String)
  | cycle (phase : String) (path : List String)
  | ambiguousFirst (phase : String) (handlers : List String)
  | ambiguousLast (phase : String) (handlers : List String)
  | ruleConflict (handler : String) (conflict : Conflict)
  deriving DecidableEq, Repr

/-- The message that reports a resolution error. -/
def ResolutionError.message : ResolutionError → String
  | .undeclaredPhase handler phase =>
    "handler " ++ handler ++ " targets phase " ++ Text.quoted phase ++
      ", which is not part of the flow"
  | .duplicatePhase phase =>
    "phase " ++ Text.quoted phase ++ " appears more than once in the phase order"
  | .duplicateHandler phase handler =>
    "handler " ++ handler ++ " is declared twice in phase " ++ Text.quoted phase
  | .unknownHandler phase handler reference =>
    "handler " ++ handler ++ " in phase " ++ Text.quoted phase ++
      " refers to unknown handler " ++ Text.quoted reference
  | .cycle phase path =>
    "cyclic before/after constraints in phase " ++ Text.quoted phase ++ ": " ++
      String.intercalate " -> " path
  | .ambiguousFirst phase handlers =>
    "phase " ++ Text.quoted phase ++ " has several phase-first handlers with no mutual order: " ++
      Text.quotedList handlers
  | .ambiguousLast phase handlers =>
    "phase " ++ Text.quoted phase ++ " has several phase-last handlers with no mutual order: " ++
      Text.quotedList handlers
  | .ruleConflict handler conflict =>
    "conflicting phase rule on handler " ++ handler ++ ": " ++ conflict.message

end SoapPipeline
