import ScriptSetup.Setup.Convert

/-!
# What writing reports

While code is written, findings are made about placeholders, accessors that cannot be read and
removed exports, and about nothing else. What a placeholder is said to stand for fits on a line.
-/

set_option autoImplicit false

namespace ScriptSetup.Setup

open Script Component Written

/-! ## Findings of steps -/

/-- The causes of findings that are made while code is written. -/
def isWritingCause : FindingCause → Bool
  | .replacedExpr what | .replacedStmt what => !Text.isMultiline what
  | .setterOnly _ | .removedExport => true
  | .noEquivalent _ | .mixins | .droppedDecorator _ _ | .undeclared _ | .removedImport _ => false

/-- The cause of a finding about a parameter that an event cannot pass on. -/
def isParameterCause (cause : FindingCause) : Bool :=
  cause == .replacedExpr "destructured event parameter"

/-- The causes of findings that are made while code is written, but for those about parameters of
events. -/
def isPlainCause (cause : FindingCause) : Bool :=
  isWritingCause cause && !isParameterCause cause

/-- All findings have such a cause. -/
def CausedBy {α : Type} (p : FindingCause → Bool) (w : Written α) : Prop :=
  ∀ f ∈ w.findings, p f.cause = true

namespace CausedBy

variable {α β : Type} {p : FindingCause → Bool}

theorem of (value : α) : CausedBy p (Written.of value) := fun _ => nofun

theorem bind {w : Written α} {f : α → Written β} (hw : CausedBy p w)
    (hf : CausedBy p (f w.value)) : CausedBy p (w >>= f) :=
  List.forall_mem_append.2 ⟨hw, hf⟩

theorem mono {q : FindingCause → Bool} {w : Written α} (hw : CausedBy p w)
    (h : ∀ cause, p cause = true → q cause = true) : CausedBy q w :=
  fun f hf => h f.cause (hw f hf)

theorem all {f : α → Written β} (hf : ∀ a, CausedBy p (f a)) (as : List α) :
    CausedBy p (Written.all f as) := by
  induction as with
  | nil => exact of []
  | cons a as ih => exact (hf a).bind (ih.bind (of _))

theorem single {value : α} {templateRefs : List String} {cause : FindingCause} {span : Span}
    (h : p cause = true) : CausedBy p ⟨value, templateRefs, [⟨cause, span⟩]⟩ :=
  List.forall_mem_singleton.2 h

end CausedBy

theorem isWritingCause_of_plain {cause : FindingCause} (h : isPlainCause cause = true) :
    isWritingCause cause = true :=
  (Bool.and_eq_true_iff.1 h).1

end ScriptSetup.Setup
