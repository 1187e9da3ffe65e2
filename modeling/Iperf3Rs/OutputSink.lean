import Iperf3Rs.Args
import Iperf3Rs.GetoptLong

/-! Where the output of a run of `IperfCommand` goes. libiperf reads the arguments with
`getopt_long`, and `should_suppress_output` looks through the same words for `--logfile`. -/

namespace Iperf3Rs

open Getopt (Flag Table LongOption LooksAt Abbreviates Spells)

/-- The vendored parser: the options, the case of its `switch` for a flag with what it returns, if
it does, and the checks behind the loop. `--logfile` takes an operand, and no other option has its
name or its value. -/
structure Libiperf where
  table : Table
  optLogfile : ℕ
  sole : table.Sole ⟨"logfile", .required, optLogfile⟩
  body : List Flag → Flag → Option ℤ
  checks : List Flag → ℤ
  currentError : String

namespace Libiperf

def logfileOption (lib : Libiperf) : LongOption := ⟨"logfile", .required, lib.optLogfile⟩

/-- `iperf_parse_arguments` on the words behind the program's name: what it returns, and
`test->logfile`, a copy of the operand of the last `--logfile`. A `?` is returned as 3. -/
def parse (lib : Libiperf) (args : List String) : ℤ × Option String :=
  let (flags, ended) := Getopt.loop lib.table lib.body args 0 []
  let logfile := flags.reverse.findSome? fun flag =>
    if flag.1 = lib.optLogfile then flag.2 else none
  match ended with
  | .returned rc => (rc, logfile)
  | .unknown => (3, logfile)
  | .finished => (lib.checks flags, logfile)

end Libiperf

inductive ParseOutcome where
  | parsed
  | help
  | version
  | usageError
  deriving DecidableEq

def ParseOutcome.text : ParseOutcome → String
  | .parsed => "Parsed"
  | .help => "Help"
  | .version => "Version"
  | .usageError => "UsageError"

/-- What `parse_arguments` makes of the value returned. -/
def Libiperf.outcome (lib : Libiperf) (rc : ℤ) : Except Error ParseOutcome :=
  if rc < 0 then .error ⟨.libiperf, "failed to parse iperf options: " ++ lib.currentError⟩
  else if rc = 0 then .ok .parsed
  else if rc = 1 then .ok .help
  else if rc = 2 then .ok .version
  else if rc = 3 then .ok .usageError
  else .error ⟨.internal, "unknown native parser outcome"⟩

/-- `IperfTest::parse_arguments` on a new test, with `test->logfile` behind it. `quoted` is the
debug form of a string. -/
def parseArguments (lib : Libiperf) (quoted : String → String) (argv : List String) :
    Except Error ParseOutcome × Option String :=
  if 2 ^ 31 ≤ argv.length then (.error (.invalidArgument "too many iperf arguments"), none)
  else
    match argv.find? Args.hasNul with
    | some arg => (.error (.invalidArgument ("argument contains NUL: " ++ quoted arg)), none)
    | none =>
      let (rc, logfile) := lib.parse argv.tail
      (lib.outcome rc, logfile)

structure IperfCommand where
  program : String
  args : List String
  suppressOutput : Bool

namespace IperfCommand

def ofArgs (args : List String) : IperfCommand := ⟨"iperf3-rs", args, true⟩

def argv (command : IperfCommand) : List String := command.program :: command.args

def isLogfileArg (arg : String) : Bool :=
  arg == "--logfile" || Text.startsWith arg "--logfile="

def hasLogfileArg (command : IperfCommand) : Bool := command.args.any isLogfileArg

def shouldSuppressOutput (command : IperfCommand) : Bool :=
  command.suppressOutput && !command.hasLogfileArg

end IperfCommand

/-- `iperf3rs_suppress_output`, which fails only if there is no memory for the path. -/
def suppressOutput (memory : Bool) : Except Error String :=
  if memory then .ok "/dev/null"
  else .error ⟨.internal, "failed to suppress libiperf output"⟩

/-- The part of `setup_run` that settles the log file of the test; without one the output goes to
the standard output. -/
def setupOutput (lib : Libiperf) (quoted : String → String) (memory : Bool)
    (command : IperfCommand) : Except Error (Option String) :=
  match parseArguments lib quoted command.argv with
  | (.error e, _) => .error e
  | (.ok outcome, logfile) =>
    if outcome ≠ .parsed then
      .error (.invalidArgument
        ("iperf arguments request " ++ outcome.text ++ ", not a measurement"))
    else if command.shouldSuppressOutput then (suppressOutput memory).map some
    else .ok logfile

namespace IperfCommand

/-- libiperf gets the words, and looks for an option at this one. -/
structure OptionAt (lib : Libiperf) (command : IperfCommand) (word : String)
    (next : Option String) : Prop where
  length : command.argv.length < 2 ^ 31
  plain : ∀ arg ∈ command.argv, Args.hasNul arg = false
  looks : LooksAt lib.table lib.body [] 0 command.args word next

/-- The word is `--logfile` under an abbreviation that no other option has, with an operand. -/
def Abbreviated (lib : Libiperf) (word : String) (next : Option String) : Prop :=
  ∃ name, name ≠ "logfile" ∧ Abbreviates lib.table name lib.logfileOption ∧ Spells word name next

/-- An option is an abbreviation of `--logfile`, and no word is `--logfile` in full. -/
def AbbreviatedOnly (lib : Libiperf) (command : IperfCommand) : Prop :=
  (∀ arg ∈ command.args, isLogfileArg arg = false) ∧
    ∃ word next, command.OptionAt lib word next ∧ Abbreviated lib word next

/-- A word is `--logfile` in full, but no option is, nor an abbreviation of it: the word is the
operand of another option, without an operand itself, or behind the last word that is parsed. -/
def LookalikeOnly (lib : Libiperf) (command : IperfCommand) : Prop :=
  (∃ arg ∈ command.args, isLogfileArg arg = true) ∧
    ∀ word next, command.OptionAt lib word next →
      ¬ Spells word "logfile" next ∧ ¬ Abbreviated lib word next

end IperfCommand

section Selection

variable {lib : Libiperf} {command : IperfCommand}

theorem isLogfileArg_of_spells {word : String} {next : Option String}
    (h : Spells word "logfile" next) : IperfCommand.isLogfileArg word = true := by
  rw [IperfCommand.isLogfileArg, Bool.or_eq_true]
  rcases h with ⟨rfl, -⟩ | ⟨value, rfl⟩
  · exact .inl rfl
  · exact .inr (Text.startsWith_append "--logfile=" value)

theorem parse_logfile (lib : Libiperf) (args : List String) :
    (lib.parse args).2.isSome = true ↔ ∃ word next,
      LooksAt lib.table lib.body [] 0 args word next ∧
        (Spells word "logfile" next ∨ IperfCommand.Abbreviated lib word next) := by
  have hlogfile : (lib.parse args).2 =
      (Getopt.loop lib.table lib.body args 0 []).1.reverse.findSome? fun flag =>
        if flag.1 = lib.optLogfile then flag.2 else none := by
    simp only [Libiperf.parse]
    split <;> rfl
  have hplain : '=' ∉ "logfile".toList := by decide
  rw [hlogfile, List.findSome?_isSome_iff]
  constructor
  · rintro ⟨⟨val, operand⟩, hflag, hselects⟩
    rw [List.mem_reverse] at hflag
    split at hselects
    · next hval =>
      obtain rfl : val = lib.optLogfile := hval
      obtain ⟨operand, rfl⟩ := Option.isSome_iff_exists.mp hselects
      rcases Getopt.looksAt_of_mem_loop hflag with hflag | ⟨word, next, hlooks, hflag⟩
      · cases hflag
      · obtain ⟨name, hname, hspells⟩ := Getopt.spelling_of_flag lib.sole rfl hflag
        refine ⟨word, next, hlooks, ?_⟩
        by_cases hfull : name = "logfile"
        · exact .inl (hfull ▸ hspells)
        · exact .inr ⟨name, hfull, hname.resolve_left hfull, hspells⟩
    · cases hselects
  · rintro ⟨word, next, hlooks, hspells⟩
    have hname : ∃ name, (name = lib.logfileOption.name ∨
        Abbreviates lib.table name lib.logfileOption) ∧ Spells word name next := by
      rcases hspells with hspells | ⟨name, -, habbreviates, hspells⟩
      · exact ⟨"logfile", .inl rfl, hspells⟩
      · exact ⟨name, .inr habbreviates, hspells⟩
    obtain ⟨name, hname, hspells⟩ := hname
    obtain ⟨operand, hflags⟩ := Getopt.flag_of_spelling lib.sole rfl hplain hname hspells
    refine ⟨(lib.optLogfile, some operand), ?_, ?_⟩
    · rw [List.mem_reverse]
      exact Getopt.mem_loop_of_looksAt hlooks hflags
    · rw [if_pos rfl]
      rfl

theorem parseArguments_logfile (lib : Libiperf) (quoted : String → String)
    (command : IperfCommand) :
    (parseArguments lib quoted command.argv).2.isSome = true ↔ ∃ word next,
      command.OptionAt lib word next ∧
        (Spells word "logfile" next ∨ IperfCommand.Abbreviated lib word next) := by
  rw [parseArguments]
  split
  · next hlong =>
    simp only [Option.isSome_none, Bool.false_eq_true, false_iff]
    rintro ⟨word, next, hoption, -⟩
    have hlength := hoption.length
    omega
  · next hlength =>
    split
    · next arg hnul =>
      simp only [Option.isSome_none, Bool.false_eq_true, false_iff]
      rintro ⟨word, next, hoption, -⟩
      have hplain := hoption.plain arg (List.mem_of_find?_eq_some hnul)
      rw [List.find?_some hnul] at hplain
      cases hplain
    · next hnul =>
      have hplain : ∀ arg ∈ command.argv, Args.hasNul arg = false := fun arg harg =>
        Bool.eq_false_iff.mpr (List.find?_eq_none.mp hnul arg harg)
      have htail : command.argv.tail = command.args := rfl
      rw [htail, parse_logfile]
      constructor
      · rintro ⟨word, next, hlooks, hspells⟩
        exact ⟨word, next, ⟨by omega, hplain, hlooks⟩, hspells⟩
      · rintro ⟨word, next, hoption, hspells⟩
        exact ⟨word, next, hoption.looks, hspells⟩

theorem hasLogfileArg_of_option {word : String} {next : Option String}
    (hoption : command.OptionAt lib word next) (hspells : Spells word "logfile" next) :
    ∃ arg ∈ command.args, IperfCommand.isLogfileArg arg = true :=
  ⟨word, hoption.looks.mem, isLogfileArg_of_spells hspells⟩

theorem shouldSuppressOutput_eq_false (hquiet : command.suppressOutput = true) :
    command.shouldSuppressOutput = false ↔
      ∃ arg ∈ command.args, IperfCommand.isLogfileArg arg = true := by
  rw [IperfCommand.shouldSuppressOutput, hquiet, Bool.true_and, Bool.not_eq_false',
    IperfCommand.hasLogfileArg, List.any_eq_true]

/-- The scan agrees with libiperf's own parse apart from two kinds of command lines. -/
theorem scan_agrees_iff (lib : Libiperf) (quoted : String → String) (command : IperfCommand)
    (hquiet : command.suppressOutput = true) :
    (command.shouldSuppressOutput = false ↔
        (parseArguments lib quoted command.argv).2.isSome = true) ↔
      ¬ command.AbbreviatedOnly lib ∧ ¬ command.LookalikeOnly lib := by
  rw [shouldSuppressOutput_eq_false hquiet, parseArguments_logfile]
  constructor
  · intro hagree
    constructor
    · rintro ⟨hnone, word, next, hoption, habbreviated⟩
      obtain ⟨arg, harg, hlogfile⟩ := hagree.mpr ⟨word, next, hoption, .inr habbreviated⟩
      rw [hnone arg harg] at hlogfile
      cases hlogfile
    · rintro ⟨hsome, hno⟩
      obtain ⟨word, next, hoption, hfull | habbreviated⟩ := hagree.mp hsome
      · exact (hno word next hoption).1 hfull
      · exact (hno word next hoption).2 habbreviated
  · rintro ⟨habbreviatedOnly, hlookalikeOnly⟩
    constructor
    · intro hsome
      by_contra hno
      refine hlookalikeOnly ⟨hsome, fun word next hoption => ⟨fun hfull => ?_, fun hshort => ?_⟩⟩
      · exact hno ⟨word, next, hoption, .inl hfull⟩
      · exact hno ⟨word, next, hoption, .inr hshort⟩
    · rintro ⟨word, next, hoption, hfull | habbreviated⟩
      · exact hasLogfileArg_of_option hoption hfull
      · by_contra hno
        refine habbreviatedOnly ⟨fun arg harg => ?_, word, next, hoption, habbreviated⟩
        rw [← Bool.not_eq_true]
        exact fun hlogfile => hno ⟨arg, harg, hlogfile⟩

theorem setupOutput_sink {quoted : String → String} {memory : Bool} {sink : Option String}
    (h : setupOutput lib quoted memory command = .ok sink) :
    sink = if command.shouldSuppressOutput then some "/dev/null"
      else (parseArguments lib quoted command.argv).2 := by
  rw [setupOutput] at h
  split at h
  · cases h
  · next outcome logfile hparse =>
    rw [hparse]
    split at h
    · cases h
    · split at h
      · next hsuppress =>
        rw [if_pos hsuppress]
        cases memory with
        | true =>
          cases h
          rfl
        | false => cases h
      · next hsuppress =>
        cases h
        rw [if_neg hsuppress]

/-- With suppression on, `should_suppress_output` agrees with libiperf's own parse apart from two
kinds of command lines: those where an option is an abbreviation and no word is in full, and those
where only words that are no such option are in full. Apart from these, a run writes to the log
file that it has been asked for, and to the null sink if there is none. -/
theorem should_suppress_output (lib : Libiperf) (quoted : String → String)
    (command : IperfCommand) (hquiet : command.suppressOutput = true) :
    ((command.shouldSuppressOutput = false ↔
        (parseArguments lib quoted command.argv).2.isSome = true) ↔
      ¬ command.AbbreviatedOnly lib ∧ ¬ command.LookalikeOnly lib) ∧
    ∀ memory sink, setupOutput lib quoted memory command = .ok sink →
      (sink = some ((parseArguments lib quoted command.argv).2.getD "/dev/null") ∨
        command.AbbreviatedOnly lib ∨ command.LookalikeOnly lib) := by
  have hiff := scan_agrees_iff lib quoted command hquiet
  refine ⟨hiff, fun memory sink hsetup => ?_⟩
  by_cases hkinds : command.AbbreviatedOnly lib ∨ command.LookalikeOnly lib
  · exact .inr hkinds
  · have hagree := hiff.mpr (not_or.mp hkinds)
    refine .inl ?_
    rw [setupOutput_sink hsetup]
    by_cases hsuppress : command.shouldSuppressOutput = true
    · have hnone : (parseArguments lib quoted command.argv).2 = none := by
        rw [← Option.not_isSome_iff_eq_none, ← hagree, hsuppress]
        exact Bool.noConfusion
      rw [if_pos hsuppress, hnone]
      rfl
    · have hsome := hagree.mp (Bool.eq_false_iff.mpr hsuppress)
      obtain ⟨logfile, hlogfile⟩ := Option.isSome_iff_exists.mp hsome
      rw [if_neg hsuppress, hlogfile]
      rfl

end Selection

section Samples

def sampleShort (c : Char) : Option Getopt.HasArg :=
  if c ∈ ['c', 'T', 'l'] then some .required
  else if c ∈ ['s', 'h', 'v'] then some .no
  else none

def sampleLibiperf : Libiperf where
  table := ⟨sampleShort,
    [⟨"version", .no, 118⟩, ⟨"server", .no, 115⟩, ⟨"client", .required, 99⟩,
      ⟨"length", .required, 108⟩, ⟨"title", .required, 84⟩, ⟨"logfile", .required, 2⟩,
      ⟨"help", .no, 104⟩]⟩
  optLogfile := 2
  sole := by
    refine ⟨by decide, by decide, fun c hc heq => hc ?_⟩
    have hchar : c = Char.ofNat 2 := (Char.ofNat_toNat c).symm.trans (congrArg Char.ofNat heq)
    rw [hchar]
    decide
  body _ flag := if flag.1 = 104 then some 1 else if flag.1 = 118 then some 2 else none
  checks _ := 0
  currentError := ""

theorem should_suppress_output_logfile : ∃ command : IperfCommand,
    command.args = ["-c", "host", "--logfile", "x.log"] ∧ command.shouldSuppressOutput = false ∧
      (parseArguments sampleLibiperf id command.argv).2.isSome = true ∧
      ∀ memory sink, setupOutput sampleLibiperf id memory command = .ok sink →
        sink = some "x.log" := by
  let command := IperfCommand.ofArgs ["-c", "host", "--logfile", "x.log"]
  have hfull : ¬ command.AbbreviatedOnly sampleLibiperf := fun h =>
    absurd (h.1 "--logfile" (by decide)) (by decide)
  have hlooks : command.OptionAt sampleLibiperf "--logfile" (some "x.log") := by
    refine ⟨by decide, by decide, ?_⟩
    refine .later [] [(99, some "host")] "-c" _ _ _ (by decide) rfl rfl ?_
    exact .operand _ 0 "host" _ _ _ (.here _ "--logfile" ["x.log"] (by decide))
  have hoption : ¬ command.LookalikeOnly sampleLibiperf := fun h =>
    (h.2 "--logfile" (some "x.log") hlooks).1 (.inl ⟨rfl, rfl⟩)
  have hagree := should_suppress_output sampleLibiperf id command rfl
  have hparse : (parseArguments sampleLibiperf id command.argv).2 = some "x.log" := by decide
  refine ⟨command, rfl, hagree.1.mpr ⟨hfull, hoption⟩ |>.mpr (by rw [hparse]; rfl), ?_, ?_⟩
  · rw [hparse]
    rfl
  · intro memory sink hsetup
    rcases hagree.2 memory sink hsetup with hsink | hkind | hkind
    · rw [hsink, hparse]
      rfl
    · exact absurd hkind hfull
    · exact absurd hkind hoption

/-- An abbreviated `--logfile` loses its file to the null sink, and `--logfile` as a title lets the
output through. -/
theorem should_suppress_output_fails :
    (∃ command : IperfCommand, command.args = ["-c", "host", "--logf", "x.log"] ∧
      command.suppressOutput = true ∧ command.shouldSuppressOutput = true ∧
      parseArguments sampleLibiperf id command.argv = (.ok .parsed, some "x.log") ∧
      setupOutput sampleLibiperf id true command = .ok (some "/dev/null")) ∧
    ∃ command : IperfCommand, command.args = ["-c", "host", "-T", "--logfile"] ∧
      command.suppressOutput = true ∧ command.shouldSuppressOutput = false ∧
      parseArguments sampleLibiperf id command.argv = (.ok .parsed, none) ∧
      setupOutput sampleLibiperf id true command = .ok none :=
  ⟨⟨.ofArgs ["-c", "host", "--logf", "x.log"], rfl, rfl, rfl, rfl, rfl⟩,
    .ofArgs ["-c", "host", "-T", "--logfile"], rfl, rfl, rfl, rfl, rfl⟩

end Samples

end Iperf3Rs
