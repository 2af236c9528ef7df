import UnitCalculus.CommandLine
import UnitCalculus.Proofs.Service.Conversion

/-! # Conversions by the program and by the service

The program and the service convert with the same template, but the service also reads the target by
itself, and the program reads it only in the template, without the blanks around it.  So both print
the same line or both fail (`convertedText_eq_ok_iff`).  Where there are no braces they fail alike,
up to positions in a fault that is explained (`lockstep_convertedText`); a brace in the target is no
symbol to the service and a field to the program. -/

namespace UnitCalculus.CommandLine

open Expression

variable {text target spec : String} {env : Environment} {files : Files}

/-! ### Arguments -/

theorem ne_dashes_of_isOption {arg : String} (h : Arguments.isOption arg = false) :
    (arg == "--") = false := by
  rw [beq_eq_false_iff_ne]
  rintro rfl
  revert h
  decide

theorem split_convert (htext : Arguments.isOption text = false)
    (htarget : Arguments.isOption target = false) (spec : String) :
    Arguments.split convertCommand.allOptions true [text, target, "--format", spec] =
      .ok ⟨[("--format", spec)], [text, target]⟩ := by
  have hformat : Arguments.split convertCommand.allOptions true ["--format", spec] =
      .ok ⟨[("--format", spec)], []⟩ := rfl
  rw [Arguments.split, ne_dashes_of_isOption htext, htext, Arguments.split,
    ne_dashes_of_isOption htarget, htarget, hformat]
  rfl

theorem runConvert_eq (htext : Arguments.isOption text = false)
    (htarget : Arguments.isOption target = false) (fs : Files) (spec : String) :
    runConvert fs none [text, target, "--format", spec] = (do
      writeLog []
      writeLog (Expression.trace .decimal text)
      match convertedText SI.table text target spec with
      | .ok s => writeLine s
      | .error f => failConversion f) := by
  have harguments : arguments convertCommand [text, target, "--format", spec] =
      pure ⟨[("--format", spec)], [text, target]⟩ := by
    unfold arguments
    have hsplit := split_convert htext htarget spec
    rw [show convertCommand.commands.isEmpty = true from rfl, hsplit]
    rfl
  unfold runConvert
  dsimp only
  rw [harguments, pure_bind]
  rfl

/-! ### The program -/

/-- The arguments that convert a text. -/
def conversion (text target spec : String) (env : Environment) (files : Files) : Invocation :=
  ⟨["convert", text, target, "--format", spec], env, files⟩

theorem runMain_conversion (hfile : (Settings.load env).1.unitsFile = none) :
    runMain (conversion text target spec env files) = (do
      writeEarly (Settings.load env).2
      modify fun c => { c with threshold := Settings.threshold (Settings.load env).1.logLevel }
      runConvert files none [text, target, "--format", spec]) := by
  have harguments : arguments mainCommand ["convert", text, target, "--format", spec] =
      pure ⟨[], ["convert", text, target, "--format", spec]⟩ := rfl
  unfold runMain conversion
  dsimp only
  rw [if_neg (by simp), harguments, pure_bind]
  dsimp only
  unfold runCommand
  have hoption (name : String) :
      Arguments.value? ⟨[], ["convert", text, target, "--format", spec]⟩ name = none := rfl
  have hcommand (file? : Option String) :
      command? files file? "convert" = some (runConvert files file?) := rfl
  simp only [hoption, hcommand, hfile, pure_bind, Option.isNone_some, Bool.false_eq_true, if_false,
    Option.or_none]
  rfl

/-- The steps that write the log leave the output as it is. -/
theorem run_logged (early log : List LogRecord) (threshold : Int) (x : Step Unit) (c : Console) :
    ∃ errors, (do
        writeEarly early
        modify fun c => { c with threshold := threshold }
        writeLog []
        writeLog log
        x : Step Unit).run c = x.run ⟨c.output, errors, threshold⟩ :=
  ⟨_, rfl⟩

/-- A fault of a conversion ends the program without output. -/
theorem run_failConversion (f : Fault) (c : Console) :
    ∃ errors, (failConversion f).run c =
      (.error (if Service.isExplained f then .failed else .escaped f),
        ⟨c.output, errors, c.threshold⟩) := by
  unfold failConversion
  rcases Service.namedFault_cases f with h | ⟨⟨d, rfl⟩, h⟩
  · rw [h]
    cases f with
    | display d => cases d <;> exact ⟨_, rfl⟩
    | _ => exact ⟨_, rfl⟩
  · rw [h]
    exact ⟨_, rfl⟩

/-- How a conversion with this result ends, with what was written to the error stream. -/
def ended (errors : String) : Except Fault String → Outcome
  | .ok line => ⟨0, line ++ "\n", errors, none⟩
  | .error f => ⟨1, "", errors, if Service.isExplained f then none else some f⟩

theorem run_conversion (hfile : (Settings.load env).1.unitsFile = none)
    (htext : Arguments.isOption text = false) (htarget : Arguments.isOption target = false)
    (files : Files) (spec : String) :
    ∃ errors, run (conversion text target spec env files) =
      ended errors (convertedText SI.table text target spec) := by
  unfold run
  rw [runMain_conversion hfile, runConvert_eq htext htarget]
  obtain ⟨logged, hlogged⟩ := run_logged (Settings.load env).2 (Expression.trace .decimal text)
    (Settings.threshold (Settings.load env).1.logLevel)
    (match convertedText SI.table text target spec with
      | .ok s => writeLine s
      | .error f => failConversion f) ⟨"", "", LogLevel.warning.number⟩
  rw [hlogged]
  cases convertedText SI.table text target spec with
  | ok line =>
    refine ⟨logged, ?_⟩
    change Outcome.mk 0 ("" ++ (line ++ "\n")) logged none = _
    rw [String.empty_append]
    rfl
  | error f =>
    obtain ⟨errors, h⟩ := run_failConversion f
      ⟨"", logged, Settings.threshold (Settings.load env).1.logLevel⟩
    refine ⟨errors, ?_⟩
    dsimp only
    rw [h, ended]
    cases Service.isExplained f <;> rfl

section ended

variable {errors : String} {result : Except Fault String}

theorem status_ended_eq_zero_iff :
    (ended errors result).status = 0 ↔ ∃ line, result = .ok line := by
  cases result <;> simp [ended]

theorem ended_explained_iff :
    ((ended errors result).status = 1 ∧ (ended errors result).fault = none) ↔
      ∃ f, result = .error f ∧ Service.isExplained f = true := by
  cases result <;> simp [ended]

theorem fault_ended_eq_some_iff {f : Fault} :
    (ended errors result).fault = some f ↔ result = .error f ∧ Service.isExplained f = false := by
  cases result with
  | ok line => simp [ended]
  | error g =>
    cases hg : Service.isExplained g with
    | true =>
      simp only [ended, hg, if_true, reduceCtorEq, Except.error.injEq, false_iff, not_and]
      rintro rfl
      simp [hg]
    | false =>
      simp only [ended, hg, Bool.false_eq_true, if_false, Option.some.injEq, Except.error.injEq,
        iff_self_and]
      rintro rfl
      exact hg

end ended

/-! ### The same conversion by the service -/

section agreement

variable {t : UnitTable}

/-- Without braces the two conversions differ at most in where their faults are found: the program
reads the target without the blanks around it. -/
theorem lockstep_convertedText (ht : t.Presentable) (text : String)
    (hspec : Unbraced spec.toList) (htarget : Unbraced target.toList) :
    Lockstep Fault.Alike (fun p line => p.2 = line) (Service.convertText t text target spec)
      (convertedText t text target spec) := by
  rw [Service.convertText_of_unbraced ht hspec]
  unfold Service.converted convertedText
  simp only [bind_assoc, Template.showIn_of_unbraced hspec htarget]
  refine (lockstep_self _).bind ?_
  rintro q _ rfl
  refine (lockstep_readUnit_trim t target).bind ?_
  rintro u _ rfl
  refine (lockstep_self _).bind ?_
  rintro m _ rfl
  refine (lockstep_self _).bind ?_
  rintro shown _ rfl
  exact .ok rfl

theorem unbraced_of_convertedText (ht : t.Presentable) {line : String}
    (h : convertedText t text target spec = .ok line) :
    Unbraced spec.toList ∧ Unbraced target.toList := by
  obtain ⟨q, hq, hline⟩ := bind_eq_ok h
  exact Service.unbraced_of_shown ht hq hline

/-- The two conversions succeed together, with the same line. -/
theorem convertedText_eq_ok_iff (ht : t.Presentable) {line : String} :
    convertedText t text target spec = .ok line ↔
      ∃ m, Service.convertText t text target spec = .ok (m, line) := by
  constructor
  · intro h
    obtain ⟨hspec, htarget⟩ := unbraced_of_convertedText ht h
    have hlock := lockstep_convertedText ht text hspec htarget
    rw [h] at hlock
    generalize Service.convertText t text target spec = x at hlock
    cases hlock with
    | @ok p _ hp => exact ⟨p.1, by rw [← hp]⟩
  · rintro ⟨m, h⟩
    obtain ⟨q, hq, h⟩ := bind_eq_ok h
    obtain ⟨u, -, h⟩ := bind_eq_ok h
    obtain ⟨m', -, h⟩ := bind_eq_ok h
    obtain ⟨line', hline, h⟩ := bind_eq_ok h
    cases h
    rw [convertedText, hq, ok_bind, hline]

/-- Faults that differ in their positions are explained. -/
theorem eq_or_explained_of_alike {f g : Fault} (h : f.Alike g) :
    f = g ∨ (Service.isExplained f = true ∧ Service.isExplained g = true) := by
  cases h with
  | expression h => exact .inr ⟨rfl, rfl⟩
  | same => exact .inl rfl

/-- The two conversions are explained together. -/
theorem exists_explained_iff (ht : t.Presentable) (hspec : Unbraced spec.toList)
    (htarget : Unbraced target.toList) :
    (∃ f, convertedText t text target spec = .error f ∧ Service.isExplained f = true) ↔
      ∃ f, Service.convertText t text target spec = .error f ∧ Service.isExplained f = true := by
  have hlock := lockstep_convertedText ht text hspec htarget
  generalize convertedText t text target spec = x at hlock
  generalize Service.convertText t text target spec = y at hlock
  cases hlock with
  | ok _ => simp
  | error h =>
    rcases eq_or_explained_of_alike h with rfl | ⟨hf, hg⟩
    · simp
    · simp [hf, hg]

/-- The two conversions escape together. -/
theorem unexplained_iff (ht : t.Presentable) (hspec : Unbraced spec.toList)
    (htarget : Unbraced target.toList) {f : Fault} :
    (convertedText t text target spec = .error f ∧ Service.isExplained f = false) ↔
      Service.convertText t text target spec = .error f ∧ Service.isExplained f = false := by
  have hlock := lockstep_convertedText ht text hspec htarget
  generalize convertedText t text target spec = x at hlock
  generalize Service.convertText t text target spec = y at hlock
  cases hlock with
  | ok _ => simp
  | error h =>
    rcases eq_or_explained_of_alike h with rfl | ⟨hf, hg⟩
    · simp
    · refine iff_of_false ?_ ?_
      · rintro ⟨⟨⟩, hnot⟩
        rw [hg] at hnot
        cases hnot
      · rintro ⟨⟨⟩, hnot⟩
        rw [hf] at hnot
        cases hnot

/-- How the program and the service agree on a conversion. -/
structure Agrees (spec target : String) (o : Outcome)
    (a : Except Service.EndpointFault Service.ConversionAnswer) : Prop where
  /-- The line of an answer is printed. -/
  printed (r : Service.ConversionAnswer) :
    a = .ok r → o.status = 0 ∧ o.output = r.formatted ++ "\n"
  /-- Nothing else is printed. -/
  answered : o.status = 0 → ∃ r, a = .ok r
  /-- Without braces the program explains what the service refuses. -/
  refused (hspec : Unbraced spec.toList) (htarget : Unbraced target.toList) :
    (o.status = 1 ∧ o.fault = none) ↔ ∃ r, a = .error (.refused r)
  /-- Without braces the same faults escape. -/
  escaped (hspec : Unbraced spec.toList) (htarget : Unbraced target.toList) (f : Fault) :
    o.fault = some f ↔ a = .error (.escaped f)
  /-- With braces both fail, though not always alike. -/
  failed (hbraces : ¬(Unbraced spec.toList ∧ Unbraced target.toList)) :
    o.status = 1 ∧ ∃ e, a = .error e

end agreement

/-- **The program and the service agree on conversions without braces**, and on what they print in
any case.  The program is run without a file of units, and takes no text for an option. -/
theorem run_conversion_agrees (hfile : (Settings.load env).1.unitsFile = none)
    (htext : Arguments.isOption text = false) (htarget : Arguments.isOption target = false)
    (files : Files) (spec : String) :
    Agrees spec target (run (conversion text target spec env files))
      (Service.convert SI.table text target (some spec)) := by
  have ht := SI.presentable_table
  obtain ⟨errors, hrun⟩ := run_conversion hfile htext htarget files spec
  rw [hrun]
  constructor
  case printed =>
    intro r hr
    obtain ⟨m, x, line, hline, -, rfl⟩ := Service.convert_eq_ok_iff.mp hr
    have hconverted : convertedText SI.table text target spec = .ok line :=
      (convertedText_eq_ok_iff ht).mpr ⟨m, hline⟩
    rw [hconverted]
    exact ⟨rfl, rfl⟩
  case answered =>
    intro hstatus
    obtain ⟨line, hconverted⟩ := status_ended_eq_zero_iff.mp hstatus
    obtain ⟨m, hline⟩ := (convertedText_eq_ok_iff ht).mp hconverted
    obtain ⟨-, hm, -⟩ := (Service.convertText_eq_ok_iff ht).mp hline
    obtain ⟨x, hx⟩ := (Service.yields_converted ht text target m hm).oneOrFloat.exists_toFloat
    exact ⟨_, Service.convert_eq_ok_iff.mpr ⟨m, x, line, hline, hx, rfl⟩⟩
  case refused =>
    intro hspec htarget'
    rw [ended_explained_iff, exists_explained_iff ht hspec htarget',
      Service.exists_refused_iff ht, Option.getD_some]
  case escaped =>
    intro hspec htarget' f
    rw [fault_ended_eq_some_iff, unexplained_iff ht hspec htarget',
      Service.convert_eq_escaped_iff ht, Option.getD_some]
  case failed =>
    intro hbraces
    have hnone (line : String) : convertedText SI.table text target spec ≠ .ok line :=
      fun h => hbraces (unbraced_of_convertedText ht h)
    constructor
    · generalize hresult : convertedText SI.table text target spec = result
      cases result with
      | error f => rfl
      | ok line => exact absurd hresult (hnone line)
    · cases hconvert : Service.convert SI.table text target (some spec) with
      | error e => exact ⟨e, rfl⟩
      | ok r =>
        obtain ⟨m, x, line, hline, -, -⟩ := Service.convert_eq_ok_iff.mp hconvert
        exact absurd ((convertedText_eq_ok_iff ht).mpr ⟨m, hline⟩) (hnone line)

theorem run_conversion_agrees_kilometresPerHour :
    (Settings.load []).1.unitsFile = none ∧ Arguments.isOption "72 km/h" = false ∧
      Arguments.isOption "m/s" = false ∧
      (run (conversion "72 km/h" "m/s" ".1f" [] [])).status = 0 ∧
      (run (conversion "72 km/h" "m/s" ".1f" [] [])).output = "20.0 m/s\n" := by
  have hline : Service.convertText SI.table "72 km/h" "m/s" ".1f" =
      .ok (.real 20.0, "20.0 m/s") := by decide +kernel
  have hanswer : Service.convert SI.table "72 km/h" "m/s" (some ".1f") =
      .ok ⟨20.0, "m/s", "20.0 m/s"⟩ := Service.convert_eq_ok_iff.mpr ⟨_, _, _, hline, rfl, rfl⟩
  refine ⟨by decide, by decide, by decide, ?_⟩
  exact (run_conversion_agrees (by decide) (by decide) (by decide) [] ".1f").printed _ hanswer

/-- With braces in the target the program lets a fault escape that the service explains: the target
is no unit. -/
theorem not_agrees_secondField :
    (run (conversion "1 m" "m \x7b\x7d" "" [] [])).fault = some .unknownPosition ∧
      ∃ r, Service.convert SI.table "1 m" "m \x7b\x7d" (some "") = .error (.refused r) := by
  constructor
  · have hconversion : ∃ errors, run (conversion "1 m" "m \x7b\x7d" "" [] []) =
        ended errors (convertedText SI.table "1 m" "m \x7b\x7d" "") :=
      run_conversion (by decide) (by decide) (by decide) [] ""
    obtain ⟨errors, hrun⟩ := hconversion
    have hconverted : convertedText SI.table "1 m" "m \x7b\x7d" "" = .error .unknownPosition := by
      decide +kernel
    rw [hrun, hconverted]
    rfl
  · have hconvert : Service.convertText SI.table "1 m" "m \x7b\x7d" "" =
        .error (.expression ⟨.unknownSymbol "\x7b\x7d", "m \x7b\x7d", 2⟩) := by decide +kernel
    exact (Service.exists_refused_iff SI.presentable_table).mpr ⟨_, hconvert, rfl⟩

end UnitCalculus.CommandLine
