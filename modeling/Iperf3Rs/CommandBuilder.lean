import Iperf3Rs.DurationArgs
import Iperf3Rs.GetoptComplete
import Iperf3Rs.RunCommand

/-! The builder of `IperfCommand`. Its typed helpers append words to a command line that libiperf
reads with `getopt_long`: each is read back as the option it stands for, whatever the texts of
hosts, addresses, paths and algorithms look like. -/

namespace Iperf3Rs

open Getopt (Flag Table Complete flagInfo)

namespace RunRequest

def new : RunRequest where
  program := "iperf3-rs"
  args := []
  suppressOutput := true
  metricsMode := .disabled
  pushgateway := none
  allowUnboundedServer := false

variable (command : RunRequest)

def arg (word : String) : RunRequest := { command with args := command.args ++ [word] }

def client (host : String) : RunRequest := (new.arg "-c").arg host

def serverOnce : RunRequest := (new.arg "-s").arg "-1"

def serverUnbounded : RunRequest := { new.arg "-s" with allowUnboundedServer := true }

/-- The helpers that append an option and its operand. -/
def operand (option text : String) : RunRequest := (command.arg option).arg text

def port (port : UInt16) : RunRequest := command.operand "-p" (toString port.toNat)

def duration (duration : Duration) : RunRequest := command.operand "-t" (wholeSecondsArg duration)

def reportInterval (interval : Duration) : RunRequest :=
  command.operand "-i" (decimalSecondsArg interval)

/-- The text of the path is what `to_string_lossy` makes of it. -/
def logfile (path : String) : RunRequest := command.operand "--logfile" path

def quiet : RunRequest := { command with suppressOutput := true }

def inheritOutput : RunRequest := { command with suppressOutput := false }

def connectTimeout (timeout : Duration) : RunRequest :=
  command.operand "--connect-timeout" (millisecondsArg timeout)

def omitDuration (duration : Duration) : RunRequest := command.operand "-O" (wholeSecondsArg duration)

def bind (address : String) : RunRequest := command.operand "-B" address

def udp : RunRequest := command.arg "-u"

def sctp : RunRequest := command.arg "--sctp"

def bitrateBitsPerSecond (bitsPerSecond : UInt64) : RunRequest :=
  command.operand "-b" (toString bitsPerSecond.toNat)

def parallelStreams (streams : UInt16) : RunRequest :=
  command.operand "-P" (toString streams.toNat)

def reverse : RunRequest := command.arg "-R"

def bidirectional : RunRequest := command.arg "--bidir"

def noDelay : RunRequest := command.arg "-N"

def zerocopy : RunRequest := command.arg "-Z"

def congestionControl (algorithm : String) : RunRequest := command.operand "-C" algorithm

def json : RunRequest := command.arg "-J"

end RunRequest

/-- A constructor of `IperfCommand`. -/
inductive CommandStart where
  | new
  | client (host : String)
  | serverOnce
  | serverUnbounded

/-- A call of the builder, apart from those that append arbitrary words. -/
inductive BuilderCall where
  | program (program : String)
  | port (port : UInt16)
  | duration (duration : Duration)
  | reportInterval (interval : Duration)
  | logfile (path : String)
  | quiet
  | inheritOutput
  | connectTimeout (timeout : Duration)
  | omitDuration (duration : Duration)
  | bind (address : String)
  | udp
  | sctp
  | bitrateBitsPerSecond (bitsPerSecond : UInt64)
  | parallelStreams (streams : UInt16)
  | reverse
  | bidirectional
  | noDelay
  | zerocopy
  | congestionControl (algorithm : String)
  | json
  | metrics (mode : MetricsMode)
  | pushgateway (mode : MetricsMode)
  | clearPushgateway
  | allowUnboundedServer (allow : Bool)
  deriving DecidableEq

def CommandStart.build : CommandStart → RunRequest
  | .new => .new
  | .client host => .client host
  | .serverOnce => .serverOnce
  | .serverUnbounded => .serverUnbounded

def BuilderCall.apply (command : RunRequest) : BuilderCall → RunRequest
  | .program name => { command with program := name }
  | .port n => command.port n
  | .duration d => command.duration d
  | .reportInterval interval => command.reportInterval interval
  | .logfile path => command.logfile path
  | .quiet => command.quiet
  | .inheritOutput => command.inheritOutput
  | .connectTimeout timeout => command.connectTimeout timeout
  | .omitDuration d => command.omitDuration d
  | .bind address => command.bind address
  | .udp => command.udp
  | .sctp => command.sctp
  | .bitrateBitsPerSecond bitsPerSecond => command.bitrateBitsPerSecond bitsPerSecond
  | .parallelStreams streams => command.parallelStreams streams
  | .reverse => command.reverse
  | .bidirectional => command.bidirectional
  | .noDelay => command.noDelay
  | .zerocopy => command.zerocopy
  | .congestionControl algorithm => command.congestionControl algorithm
  | .json => command.json
  | .metrics mode => { command with metricsMode := mode }
  | .pushgateway mode => { command with pushgateway := some mode }
  | .clearPushgateway => { command with pushgateway := none }
  | .allowUnboundedServer allow => { command with allowUnboundedServer := allow }

/-- The command that a constructor and a sequence of calls make. -/
def CommandStart.commandOf (start : CommandStart) (calls : List BuilderCall) : RunRequest :=
  calls.foldl BuilderCall.apply start.build

/-- The options of libiperf that the helpers name, as its documentation has them. SCTP may have
been left out of the build. -/
structure UpstreamOptions (lib : Libiperf) where
  operands : ∀ c ∈ ['c', 'p', 't', 'i', 'O', 'B', 'b', 'P', 'C'],
    lib.table.short c = some .required
  bare : ∀ c ∈ ['s', '1', 'u', 'R', 'N', 'Z', 'J'], lib.table.short c = some .no
  optConnectTimeout : ℕ
  optBidirectional : ℕ
  optSctp : Option ℕ
  connectTimeout : Getopt.resolve lib.table "connect-timeout" =
    some ⟨"connect-timeout", .required, optConnectTimeout⟩
  bidirectional : Getopt.resolve lib.table "bidir" = some ⟨"bidir", .no, optBidirectional⟩
  sctp : ∀ val ∈ optSctp, Getopt.resolve lib.table "sctp" = some ⟨"sctp", .no, val⟩
  plain : ∀ val ∈ [lib.optLogfile, optConnectTimeout, optBidirectional] ++ optSctp.toList,
    flagInfo val = none

/-- What a helper stands for: the letter of its option, or the name behind two dashes, and the
operand. -/
inductive Meant where
  | letter (c : Char) (operand : Option String)
  | connectTimeout (operand : String)
  | logfile (operand : String)
  | bidirectional
  | sctp

def CommandStart.meant : CommandStart → List Meant
  | .new => []
  | .client host => [.letter 'c' (some host)]
  | .serverOnce => [.letter 's' none, .letter '1' none]
  | .serverUnbounded => [.letter 's' none]

def BuilderCall.meant : BuilderCall → List Meant
  | .port n => [.letter 'p' (some (toString n.toNat))]
  | .duration d => [.letter 't' (some (wholeSecondsArg d))]
  | .reportInterval interval => [.letter 'i' (some (decimalSecondsArg interval))]
  | .logfile path => [.logfile path]
  | .connectTimeout timeout => [.connectTimeout (millisecondsArg timeout)]
  | .omitDuration d => [.letter 'O' (some (wholeSecondsArg d))]
  | .bind address => [.letter 'B' (some address)]
  | .udp => [.letter 'u' none]
  | .sctp => [.sctp]
  | .bitrateBitsPerSecond bitsPerSecond => [.letter 'b' (some (toString bitsPerSecond.toNat))]
  | .parallelStreams streams => [.letter 'P' (some (toString streams.toNat))]
  | .reverse => [.letter 'R' none]
  | .bidirectional => [.bidirectional]
  | .noDelay => [.letter 'N' none]
  | .zerocopy => [.letter 'Z' none]
  | .congestionControl algorithm => [.letter 'C' (some algorithm)]
  | .json => [.letter 'J' none]
  | .program _ | .quiet | .inheritOutput | .metrics _ | .pushgateway _ | .clearPushgateway
  | .allowUnboundedServer _ => []

/-- What a command is meant to ask of libiperf. -/
def CommandStart.meantBy (start : CommandStart) (calls : List BuilderCall) : List Meant :=
  start.meant ++ calls.flatMap BuilderCall.meant

namespace Meant

def words : Meant → List String
  | .letter c operand => .ofList ['-', c] :: operand.toList
  | .connectTimeout operand => ["--connect-timeout", operand]
  | .logfile operand => ["--logfile", operand]
  | .bidirectional => ["--bidir"]
  | .sctp => ["--sctp"]

/-- The texts given as operands. -/
def operands : Meant → List String
  | .letter _ operand => operand.toList
  | .connectTimeout operand | .logfile operand => [operand]
  | .bidirectional | .sctp => []

def logfilePath : Meant → Option String
  | .logfile path => some path
  | _ => none

variable {lib : Libiperf} (U : UpstreamOptions lib)

def flag : Meant → Flag
  | .letter c operand => (c.toNat, operand)
  | .connectTimeout operand => (U.optConnectTimeout, some operand)
  | .logfile operand => (lib.optLogfile, some operand)
  | .bidirectional => (U.optBidirectional, none)
  | .sctp => (U.optSctp.getD 0, none)

/-- The option is one of those of the helpers, and in the build. -/
def Supported : Meant → Prop
  | .letter c (some _) => c ∈ ['c', 'p', 't', 'i', 'O', 'B', 'b', 'P', 'C']
  | .letter c none => c ∈ ['s', '1', 'u', 'R', 'N', 'Z', 'J']
  | .sctp => U.optSctp.isSome = true
  | .connectTimeout _ | .logfile _ | .bidirectional => True

end Meant

section Words

theorem RunRequest.arg_args (command : RunRequest) (word : String) :
    (command.arg word).args = command.args ++ [word] := rfl

theorem RunRequest.operand_args (command : RunRequest) (option text : String) :
    (command.operand option text).args = command.args ++ [option, text] := by
  simp [RunRequest.operand, RunRequest.arg_args]

theorem BuilderCall.apply_args (command : RunRequest) (call : BuilderCall) :
    (call.apply command).args = command.args ++ call.meant.flatMap Meant.words := by
  cases call
  case port | duration | reportInterval | logfile | connectTimeout | omitDuration | bind
      | bitrateBitsPerSecond | parallelStreams | congestionControl =>
    exact command.operand_args _ _
  case udp | sctp | reverse | bidirectional | noDelay | zerocopy | json =>
    exact command.arg_args _
  all_goals exact (List.append_nil _).symm

theorem CommandStart.build_args (start : CommandStart) :
    start.build.args = start.meant.flatMap Meant.words := by
  cases start <;> rfl

theorem commandOf_args (start : CommandStart) (calls : List BuilderCall) :
    (start.commandOf calls).args = (start.meantBy calls).flatMap Meant.words := by
  have hfold : ∀ command : RunRequest, (calls.foldl BuilderCall.apply command).args =
      command.args ++ (calls.flatMap BuilderCall.meant).flatMap Meant.words := by
    induction calls with
    | nil => simp
    | cons call calls ih =>
      intro command
      rw [List.foldl_cons, ih, BuilderCall.apply_args, List.flatMap_cons, List.flatMap_append,
        List.append_assoc]
  rw [CommandStart.commandOf, hfold, start.build_args, CommandStart.meantBy, List.flatMap_append]

end Words

section Read

variable {lib : Libiperf} (U : UpstreamOptions lib)

theorem CommandStart.supported (start : CommandStart) : ∀ m ∈ start.meant, m.Supported U := by
  cases start with
  | new => simp [CommandStart.meant]
  | client host => simp [CommandStart.meant, Meant.Supported]
  | serverOnce => simp [CommandStart.meant, Meant.Supported]
  | serverUnbounded => simp [CommandStart.meant, Meant.Supported]

theorem BuilderCall.supported {call : BuilderCall} (hsctp : call = .sctp → U.optSctp.isSome = true) :
    ∀ m ∈ call.meant, m.Supported U := by
  cases call
  case sctp => simpa [BuilderCall.meant, Meant.Supported] using hsctp rfl
  all_goals simp [BuilderCall.meant, Meant.Supported]

theorem supported_meantBy (start : CommandStart) {calls : List BuilderCall}
    (hsctp : .sctp ∈ calls → U.optSctp.isSome = true) :
    ∀ m ∈ start.meantBy calls, m.Supported U := by
  intro m hm
  rcases List.mem_append.mp hm with hm | hm
  · exact start.supported U m hm
  · obtain ⟨call, hcall, hm⟩ := List.mem_flatMap.mp hm
    exact BuilderCall.supported U (fun h => hsctp (h ▸ hcall)) m hm

/-- The words of a helper are its option, and nothing in its operand is looked at. -/
theorem Meant.complete {m : Meant} (h : m.Supported U) :
    Complete lib.table m.words [m.flag U] := by
  have hdash : ∀ c ∈ ['c', 'p', 't', 'i', 'O', 'B', 'b', 'P', 'C', 's', '1', 'u', 'R', 'N', 'Z',
      'J'], c ≠ '-' := by simp
  cases m with
  | letter c operand =>
    have hword : (String.ofList ['-', c]).toList = ['-', c] := String.toList_ofList
    cases operand with
    | none =>
      have hc : c ≠ '-' := hdash c (List.mem_append_right ['c', 'p', 't', 'i', 'O', 'B', 'b', 'P',
        'C'] h)
      exact Getopt.complete_letter hword hc (U.bare c h)
    | some operand =>
      have hc : c ≠ '-' := hdash c (List.mem_append_left ['s', '1', 'u', 'R', 'N', 'Z', 'J'] h)
      exact Getopt.complete_letter_operand hword hc (U.operands c h) operand
  | connectTimeout operand =>
    exact Getopt.complete_name_operand (by decide) (by decide) U.connectTimeout rfl operand
  | logfile operand =>
    have hresolve : Getopt.resolve lib.table "logfile" = some lib.logfileOption :=
      (Getopt.resolve_iff lib.sole).mpr (.inl rfl)
    exact Getopt.complete_name_operand (by decide) (by decide) hresolve rfl operand
  | bidirectional => exact Getopt.complete_name (by decide) (by decide) U.bidirectional rfl
  | sctp =>
    obtain ⟨val, hval⟩ := Option.isSome_iff_exists.mp h
    have hcomplete := Getopt.complete_name (by decide) (by decide) (U.sctp val hval) rfl
    rw [Meant.flag, hval]
    exact hcomplete

theorem Meant.plain {m : Meant} (h : m.Supported U) : flagInfo (m.flag U).1 = none := by
  have hletters : ∀ c ∈ ['c', 'p', 't', 'i', 'O', 'B', 'b', 'P', 'C', 's', '1', 'u', 'R', 'N', 'Z',
      'J'], flagInfo c.toNat = none := by simp [flagInfo]
  cases m with
  | letter c operand =>
    cases operand with
    | none => exact hletters c (List.mem_append_right ['c', 'p', 't', 'i', 'O', 'B', 'b', 'P',
        'C'] h)
    | some operand =>
      exact hletters c (List.mem_append_left ['s', '1', 'u', 'R', 'N', 'Z', 'J'] h)
  | connectTimeout operand => exact U.plain _ (by simp [Meant.flag])
  | logfile operand => exact U.plain _ (by simp [Meant.flag])
  | bidirectional => exact U.plain _ (by simp [Meant.flag])
  | sctp =>
    obtain ⟨val, hval⟩ := Option.isSome_iff_exists.mp h
    exact U.plain _ (by simp [Meant.flag, hval])

/-- Only the helper for it sets the log file. -/
theorem Meant.logfile_flag {m : Meant} (h : m.Supported U) :
    (if (m.flag U).1 = lib.optLogfile then (m.flag U).2 else none) = m.logfilePath := by
  have hletter : ∀ c, lib.table.short c ≠ none → c.toNat ≠ lib.optLogfile := lib.sole.letters
  have hname : ∀ {name full : String} {hasArg : Getopt.HasArg} {val : ℕ},
      Getopt.resolve lib.table name = some ⟨full, hasArg, val⟩ → full ≠ "logfile" →
        val ≠ lib.optLogfile := by
    intro name full hasArg val hresolve hne hval
    exact hne (congrArg Getopt.LongOption.name
      (lib.sole.only _ (Getopt.resolve_mem hresolve) (.inr hval)))
  cases m with
  | letter c operand =>
    cases operand with
    | none => exact if_neg (hletter c (by rw [U.bare c h]; simp))
    | some operand => exact if_neg (hletter c (by rw [U.operands c h]; simp))
  | connectTimeout operand => exact if_neg (hname U.connectTimeout (by decide))
  | logfile operand => exact if_pos rfl
  | bidirectional => exact if_neg (hname U.bidirectional (by decide))
  | sctp =>
    obtain ⟨val, hval⟩ := Option.isSome_iff_exists.mp h
    rw [Meant.flag, hval]
    exact if_neg (hname (U.sctp val hval) (by decide))

theorem complete_meantBy (start : CommandStart) {calls : List BuilderCall}
    (hsctp : .sctp ∈ calls → U.optSctp.isSome = true) :
    Complete lib.table (start.commandOf calls).args ((start.meantBy calls).map (Meant.flag U)) := by
  have hcomplete := Complete.flatMap fun m hm =>
    Meant.complete U (supported_meantBy U start hsctp m hm)
  rw [commandOf_args, ← List.flatMap_pure_eq_map]
  exact hcomplete

end Read

section Output

variable {lib : Libiperf} (U : UpstreamOptions lib)

/-- The last of the calls that settle the output of the terminal; it is suppressed by default. -/
def suppresses (calls : List BuilderCall) : Bool :=
  (calls.reverse.findSome? fun call =>
    match call with
    | .quiet => some true
    | .inheritOutput => some false
    | _ => none).getD true

/-- A text that has been given as an operand and that `has_logfile_arg` takes for the option. -/
def looksLikeLogfile (meant : List Meant) : Bool :=
  meant.any fun m => m.operands.any IperfCommand.isLogfileArg

/-- Where the output is meant to go. -/
def meantSink (start : CommandStart) (calls : List BuilderCall) : Option String :=
  match (start.meantBy calls).reverse.findSome? Meant.logfilePath with
  | some path => some path
  | none =>
    if suppresses calls && !looksLikeLogfile (start.meantBy calls) then some "/dev/null" else none

theorem commandOf_suppressOutput (start : CommandStart) (calls : List BuilderCall) :
    (start.commandOf calls).suppressOutput = suppresses calls := by
  have hstart : start.build.suppressOutput = true := by cases start <;> rfl
  rw [CommandStart.commandOf]
  induction calls using List.reverseRecOn with
  | nil => exact hstart
  | append_singleton calls call ih =>
    rw [List.foldl_append, List.foldl_cons, List.foldl_nil, suppresses, List.reverse_append,
      List.reverse_singleton, List.singleton_append, List.findSome?_cons]
    cases call
    case quiet | inheritOutput => rfl
    all_goals exact ih

theorem Meant.any_logfileArg (m : Meant) : m.words.any IperfCommand.isLogfileArg =
    (m.logfilePath.isSome || m.operands.any IperfCommand.isLogfileArg) := by
  cases m with
  | letter c operand =>
    have hletter : IperfCommand.isLogfileArg (.ofList ['-', c]) = false := by
      rw [IperfCommand.isLogfileArg, Bool.or_eq_false_iff]
      refine ⟨?_, ?_⟩
      · rw [beq_eq_false_iff_ne]
        intro h
        have hlength := congrArg (fun s => s.toList.length) h
        simp only [String.toList_ofList] at hlength
        exact absurd (show 2 = 9 from hlength) (by decide)
      · rw [Text.startsWith, Bool.eq_false_iff, ne_eq, List.isPrefixOf_iff_prefix]
        intro h
        have hlength := h.length_le
        rw [show (String.ofList ['-', c]).toList = ['-', c] from String.toList_ofList] at hlength
        exact absurd (show 10 ≤ 2 from hlength) (by decide)
    rw [Meant.words, List.any_cons, hletter]
    rfl
  | connectTimeout operand =>
    have hname : IperfCommand.isLogfileArg "--connect-timeout" = false := by decide
    simp [Meant.words, Meant.logfilePath, Meant.operands, hname]
  | logfile operand =>
    have hname : IperfCommand.isLogfileArg "--logfile" = true := by decide
    simp [Meant.words, Meant.logfilePath, hname]
  | bidirectional => decide
  | sctp => decide

theorem commandOf_shouldSuppressOutput (start : CommandStart) (calls : List BuilderCall) :
    (start.commandOf calls).shouldSuppressOutput =
      (suppresses calls && !((start.meantBy calls).any fun m => m.logfilePath.isSome) &&
        !looksLikeLogfile (start.meantBy calls)) := by
  rw [IperfCommand.shouldSuppressOutput, IperfCommand.hasLogfileArg, commandOf_args,
    commandOf_suppressOutput, List.any_flatMap, looksLikeLogfile, Bool.and_assoc, ← Bool.not_or]
  have hany : ∀ meant : List Meant,
      (meant.any fun m => m.words.any IperfCommand.isLogfileArg) =
        ((meant.any fun m => m.logfilePath.isSome) ||
          meant.any fun m => m.operands.any IperfCommand.isLogfileArg) := by
    intro meant
    induction meant with
    | nil => rfl
    | cons m meant ih =>
      rw [List.any_cons, List.any_cons, List.any_cons, ih, m.any_logfileArg]
      ac_rfl
  rw [hany]

theorem logfile_flags {meant : List Meant} (h : ∀ m ∈ meant, m.Supported U) :
    ((meant.map (Meant.flag U)).findSome? fun flag =>
      if flag.1 = lib.optLogfile then flag.2 else none) = meant.findSome? Meant.logfilePath := by
  induction meant with
  | nil => rfl
  | cons m meant ih =>
    rw [List.map_cons, List.findSome?_cons, List.findSome?_cons,
      m.logfile_flag U (h m List.mem_cons_self), ih fun m hm => h m (List.mem_cons_of_mem _ hm)]

theorem handle_none {R : Type} {body : List Flag → Flag → Option R}
    {flags history history' : List Flag}
    (h : Getopt.handle body history flags = (history', none)) : history' = history ++ flags := by
  induction flags generalizing history with
  | nil =>
    rw [List.append_nil]
    exact (congrArg Prod.fst h).symm
  | cons flag flags ih =>
    rw [Getopt.handle] at h
    cases hbody : body history flag with
    | some result => simp [hbody] at h
    | none =>
      rw [hbody] at h
      rw [ih h, List.append_assoc, List.singleton_append]

/-- The parse of a typed command comes to its checks, or to an error before them. -/
theorem parse_commandOf (hadapted : lib.Adapted) (start : CommandStart) {calls : List BuilderCall}
    (hsctp : .sctp ∈ calls → U.optSctp.isSome = true) :
    (lib.parse (start.commandOf calls).args).1 < 0 ∨
      (lib.parse (start.commandOf calls).args =
        (lib.checks ((start.meantBy calls).map (Meant.flag U)),
          (start.meantBy calls).reverse.findSome? Meant.logfilePath)) := by
  have hsupported := supported_meantBy U start hsctp
  rw [Libiperf.parse, (complete_meantBy U start hsctp).loop_eq lib.body [], Getopt.given]
  cases hhandle : Getopt.handle lib.body [] ((start.meantBy calls).map (Meant.flag U)) with
  | mk history result =>
    cases result with
    | some rc =>
      refine .inl (handle_rejects hadapted (fun flag hflag => ?_) hhandle)
      obtain ⟨m, hm, rfl⟩ := List.mem_map.mp hflag
      exact m.plain U (hsupported m hm)
    | none =>
      obtain rfl := handle_none hhandle
      refine .inr (Prod.ext rfl ?_)
      show ((start.meantBy calls).map (Meant.flag U)).reverse.findSome? _ = _
      rw [← List.map_reverse]
      exact logfile_flags U fun m hm => hsupported m (List.mem_reverse.mp hm)

theorem parseArguments_logfile_of_ok {quoted : String → String} {argv : List String}
    {outcome : ParseOutcome} (h : (parseArguments lib quoted argv).1 = .ok outcome) :
    (parseArguments lib quoted argv).2 = (lib.parse argv.tail).2 := by
  obtain ⟨hlength, hplain, -⟩ := parseArguments_ok.mp h
  have hnone : argv.find? Args.hasNul = none :=
    List.find?_eq_none.mpr fun arg harg => by simp [hplain arg harg]
  rw [parseArguments, if_neg (by omega), hnone]

theorem setupOutput_parsed {quoted : String → String} {memory : Bool} {command : IperfCommand}
    {sink : Option String} (h : setupOutput lib quoted memory command = .ok sink) :
    (parseArguments lib quoted command.argv).1 = .ok .parsed := by
  rw [setupOutput] at h
  split at h
  · cases h
  · next outcome logfile hparse =>
    by_cases houtcome : outcome = .parsed
    · rw [hparse, houtcome]
    · rw [if_pos houtcome] at h
      cases h

/-- However a command is put together from the typed helpers, and whatever the texts given to them
look like: libiperf's `getopt_long` finds the options that the helpers stand for and no others, in
the order of the calls and each with its text. The parse is no request for help, for the version or
for the usage. The output goes to the last log file; without one it is suppressed unless the last
call about it says otherwise, or a text looks like the option for one. -/
theorem typed_command (hadapted : lib.Adapted) (start : CommandStart) (calls : List BuilderCall)
    (hsctp : .sctp ∈ calls → U.optSctp.isSome = true) :
    (∀ (R : Type) (body : List Flag → Flag → Option R),
      Getopt.loop lib.table body (start.commandOf calls).args 0 [] =
        Getopt.given body [] ((start.meantBy calls).map (Meant.flag U))) ∧
    (∀ quoted outcome, (parseArguments lib quoted (start.commandOf calls).argv).1 = .ok outcome →
      outcome = .parsed) ∧
    ∀ quoted memory sink,
      setupOutput lib quoted memory (start.commandOf calls).toIperfCommand = .ok sink →
        sink = meantSink start calls := by
  have hparse := parse_commandOf U hadapted start hsctp
  have hparsed : ∀ quoted outcome,
      (parseArguments lib quoted (start.commandOf calls).argv).1 = .ok outcome →
        outcome = .parsed ∧ lib.parse (start.commandOf calls).args =
          (lib.checks ((start.meantBy calls).map (Meant.flag U)),
            (start.meantBy calls).reverse.findSome? Meant.logfilePath) := by
    intro quoted outcome h
    have hargv : (start.commandOf calls).argv.tail = (start.commandOf calls).args := rfl
    obtain ⟨-, -, houtcome⟩ := parseArguments_ok.mp h
    rw [hargv, outcome_eq_ok] at houtcome
    rcases hparse with hneg | heq
    · omega
    · have hchecks := hadapted.checks ((start.meantBy calls).map (Meant.flag U))
      rw [heq] at houtcome
      refine ⟨?_, heq⟩
      rcases houtcome with ⟨-, hout⟩ | ⟨hrc, -⟩ | ⟨hrc, -⟩ | ⟨hrc, -⟩
      · exact hout
      · simp only at hrc
        omega
      · simp only at hrc
        omega
      · simp only at hrc
        omega
  refine ⟨fun R body => (complete_meantBy U start hsctp).loop_eq body [],
    fun quoted outcome h => (hparsed quoted outcome h).1, fun quoted memory sink hsetup => ?_⟩
  obtain ⟨-, hrc⟩ := hparsed quoted .parsed (setupOutput_parsed hsetup)
  have hlogfile := parseArguments_logfile_of_ok (setupOutput_parsed hsetup)
  rw [setupOutput_sink hsetup, hlogfile, commandOf_shouldSuppressOutput, meantSink]
  show (if _ then _ else (lib.parse (start.commandOf calls).args).2) = _
  rw [hrc]
  cases hlast : (start.meantBy calls).reverse.findSome? Meant.logfilePath with
  | some path =>
    have hany : ((start.meantBy calls).any fun m => m.logfilePath.isSome) = true := by
      obtain ⟨m, hm, hpath⟩ := List.exists_of_findSome?_eq_some hlast
      exact List.any_eq_true.mpr ⟨m, List.mem_reverse.mp hm, by rw [hpath]; rfl⟩
    simp [hany]
  | none =>
    have hany : ((start.meantBy calls).any fun m => m.logfilePath.isSome) = false := by
      refine List.any_eq_false.mpr fun m hm => ?_
      rw [List.findSome?_eq_none_iff.mp hlast m (List.mem_reverse.mpr hm)]
      exact Bool.false_ne_true
    simp [hany]

end Output

section Sample

def helperShort (c : Char) : Option Getopt.HasArg :=
  if c ∈ ['c', 'p', 't', 'i', 'O', 'B', 'b', 'P', 'C'] then some .required
  else if c ∈ ['s', '1', 'u', 'R', 'N', 'Z', 'J', 'h', 'v'] then some .no
  else none

/-- The options of libiperf that the helpers name, and those that ask for information. -/
def helperLibiperf : Libiperf where
  table := ⟨helperShort,
    [⟨"version", .no, 118⟩, ⟨"bidir", .no, 20⟩, ⟨"connect-timeout", .required, 17⟩,
      ⟨"sctp", .no, 1⟩, ⟨"logfile", .required, 2⟩, ⟨"help", .no, 104⟩]⟩
  optLogfile := 2
  sole := by
    refine ⟨by decide, by decide, fun c hc heq => hc ?_⟩
    have hchar : c = Char.ofNat 2 := (Char.ofNat_toNat c).symm.trans (congrArg Char.ofNat heq)
    rw [hchar]
    decide
  body _ flag := if flag.1 = 104 then some 1 else if flag.1 = 118 then some 2 else none
  checks _ := 0
  currentError := ""

theorem helperLibiperf_adapted : helperLibiperf.Adapted where
  regular := ⟨by decide, by decide⟩
  information history flag info hpos hinfo :=
    sampleLibiperf_adapted.information history flag info hpos hinfo
  rejects history flag rc hplain hbody :=
    sampleLibiperf_adapted.rejects history flag rc hplain hbody
  checks _ := Int.le_refl 0

def helperOptions : UpstreamOptions helperLibiperf where
  operands := by simp [helperLibiperf, helperShort]
  bare := by simp [helperLibiperf, helperShort]
  optConnectTimeout := 17
  optBidirectional := 20
  optSctp := some 1
  connectTimeout := rfl
  bidirectional := rfl
  sctp := by
    intro val hval
    cases hval
    rfl
  plain := by decide

/-- Neither the host nor the address becomes an option, but a log file that is none keeps the
output on. -/
theorem typed_command_lookalikes :
    Getopt.loop helperLibiperf.table (fun _ _ => (none : Option Unit))
        ["-c", "--logfile=x", "-B", "-s", "-p", "5201", "--sctp"] 0 [] =
      ([(99, some "--logfile=x"), (66, some "-s"), (112, some "5201"), (1, none)], .finished) ∧
    setupOutput helperLibiperf id true
      ⟨"iperf3-rs", ["-c", "--logfile=x", "-B", "-s", "-p", "5201", "--sctp"], true⟩ =
        .ok none := by
  obtain ⟨hloop, -, hsink⟩ := typed_command helperOptions helperLibiperf_adapted
    (.client "--logfile=x") [.bind "-s", .port 5201, .sctp] (fun _ => rfl)
  refine ⟨hloop Unit _, ?_⟩
  have hsetup : ∃ sink, setupOutput helperLibiperf id true
      ⟨"iperf3-rs", ["-c", "--logfile=x", "-B", "-s", "-p", "5201", "--sctp"], true⟩ = .ok sink :=
    ⟨_, rfl⟩
  obtain ⟨sink, hsetup⟩ := hsetup
  rw [hsetup, hsink id true sink hsetup]
  rfl

end Sample

end Iperf3Rs
