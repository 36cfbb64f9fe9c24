/-
The switch for quiet, in front of other arguments.

No argument looks at the switch except the switch itself, which is refused the second time.  So
arguments that make a request without it never meet it, and go the same way if it has been set
before them.  `IgnoresQuiet` says so of one step; steps that are taken one after the other keep
it, and reading all arguments is such a chain.
-/
import HeapReel.CommandLine.Arguments

namespace HeapReel.CommandLine

namespace Draft

/-- The draft with the switch set. -/
def hushed (d : Draft) : Draft :=
  { d with quiet := true }

/-- If the step ends without the switch, it began without, and it goes the same way with it. -/
def IgnoresQuiet (step : Draft → Except Halt Draft) : Prop :=
  ∀ d e, step d = .ok e → e.quiet = false → d.quiet = false ∧ step d.hushed = .ok e.hushed

theorem IgnoresQuiet.bind {f g : Draft → Except Halt Draft} (hf : IgnoresQuiet f)
    (hg : IgnoresQuiet g) : IgnoresQuiet fun d => f d >>= g := by
  intro d e h hloud
  dsimp only at h ⊢
  cases hd : f d with
  | error halt =>
      rw [hd] at h
      cases h
  | ok d' =>
      rw [hd] at h
      obtain ⟨hbetween, hsecond⟩ := hg d' e h hloud
      obtain ⟨hbefore, hfirst⟩ := hf d d' hd hbetween
      rw [hfirst]
      exact ⟨hbefore, hsecond⟩

/-- A fault is no draft. -/
theorem ignoresQuiet_error (halt : Halt) : IgnoresQuiet fun _ => .error halt := by
  intro d e h
  cases h

theorem ignoresQuiet_assign (p : Parameter) (value : Option String) :
    IgnoresQuiet fun d => d.assign p value := by
  intro d e h hloud
  have hvalue : d.hushed.value? p = d.value? p := by cases p <;> rfl
  cases value with
  | none => cases h
  | some v =>
      simp only [assign, hvalue] at h ⊢
      split at h
      · cases h
      · split at h
        · cases h
        · cases p <;> cases h <;> exact ⟨hloud, by simp_all [hushed]⟩

theorem ignoresQuiet_settle : IgnoresQuiet settle := by
  intro d e h hloud
  obtain ⟨input, output, quiet, pending⟩ := d
  rcases pending with _ | ⟨p, value⟩
  · cases h
    exact ⟨hloud, rfl⟩
  · exact ignoresQuiet_assign p value _ e h hloud

theorem ignoresQuiet_parameter (p : Parameter) (value : Option String) :
    IgnoresQuiet fun d => d.parameter p value := by
  refine ignoresQuiet_settle.bind ?_
  cases value with
  | none =>
      intro d e h hloud
      cases h
      exact ⟨hloud, rfl⟩
  | some v => exact ignoresQuiet_assign p (some v)

/-- The switch itself never leaves it unset. -/
theorem ignoresQuiet_beQuiet : IgnoresQuiet beQuiet := by
  refine ignoresQuiet_settle.bind ?_
  intro d e h hloud
  dsimp only at h
  split at h
  · cases h
  · cases h
    cases hloud

theorem ignoresQuiet_askForHelp : IgnoresQuiet askForHelp :=
  ignoresQuiet_settle.bind (ignoresQuiet_error .help)

theorem ignoresQuiet_readLong (text : List Char) : IgnoresQuiet fun d => d.readLong text := by
  unfold readLong
  rcases text.span (· ≠ '=') with ⟨name, rest⟩
  dsimp only
  split
  · exact ignoresQuiet_parameter .input _
  · exact ignoresQuiet_parameter .output _
  · exact ignoresQuiet_beQuiet
  · exact ignoresQuiet_error _
  · exact ignoresQuiet_askForHelp
  · exact ignoresQuiet_error _
  · exact ignoresQuiet_error _

theorem ignoresQuiet_readShort (text : List Char) : IgnoresQuiet fun d => d.readShort text := by
  unfold readShort
  split
  · intro d e h hloud
    cases h
    exact ⟨hloud, rfl⟩
  · exact ignoresQuiet_parameter .input _
  · exact ignoresQuiet_parameter .output _
  · exact ignoresQuiet_askForHelp
  · exact ignoresQuiet_error _

theorem ignoresQuiet_readValue (argument : String) :
    IgnoresQuiet fun d => d.readValue argument := by
  intro d e h hloud
  obtain ⟨input, output, quiet, pending⟩ := d
  rcases pending with _ | ⟨p, _ | value⟩
  · cases h
  · cases h
    exact ⟨hloud, rfl⟩
  · cases h

theorem ignoresQuiet_readAll (arguments : List String) :
    IgnoresQuiet fun d => d.readAll arguments := by
  induction arguments with
  | nil => exact ignoresQuiet_settle
  | cons argument rest ih =>
      unfold readAll
      split
      · -- What follows two dashes alone is a fault, whatever it is.
        cases rest with
        | nil => exact ignoresQuiet_settle
        | cons value rest => exact ignoresQuiet_error _
      · exact (ignoresQuiet_readLong _).bind ih
      · exact (ignoresQuiet_readShort _).bind ih
      · exact (ignoresQuiet_readValue argument).bind ih

end Draft

/-- **Arguments that make a request without the switch make the same one quiet with it.** -/
theorem Request.ofArguments_quiet_cons {arguments : List String} {request : Request}
    (h : Request.ofArguments arguments = .ok request) (hloud : request.quiet = false) :
    Request.ofArguments ("--quiet" :: arguments) = .ok { request with quiet := true } := by
  have hfirst : ({} : Draft).readAll ("--quiet" :: arguments)
      = (({} : Draft).hushed).readAll arguments := rfl
  rw [ofArguments] at h ⊢
  rw [hfirst]
  cases hread : ({} : Draft).readAll arguments with
  | error halt =>
      rw [hread] at h
      cases h
  | ok d =>
      rw [hread] at h
      obtain ⟨input, output, quiet, pending⟩ := d
      rcases input with _ | input <;> rcases output with _ | output <;> cases h
      obtain ⟨-, hquiet⟩ := Draft.ignoresQuiet_readAll arguments _ _ hread hloud
      dsimp only at hquiet
      rw [hquiet]
      rfl

end HeapReel.CommandLine
