import Iperf3Rs.Clock
import Iperf3Rs.EventLoop

/-! `IperfTest::run_server`: one accepted test after the other on the same native object, which
is reset in between. -/

namespace Iperf3Rs

/-- What one call of `iperf_run_server` comes to: the JSON that it has stored, whether it leaves
`json_top`, and what `iperf_json_finish` then stores, if it does not fail. -/
structure Session where
  rc : ℤ
  json : Option String
  jsonTop : Bool
  finished : Option String
  interrupted : Bool
  authError : Bool
  error : String

structure ServerMode where
  oneOff : Bool
  jsonOutput : Bool

/-- `recovered` is what is printed of the errors that do not end the server. -/
structure ServerTest where
  jsonOutputString : Option String
  serverLastRunRc : ℤ
  retainedJson : Option String
  resets : ℕ
  recovered : List String

def ServerTest.start : ServerTest := ⟨none, 0, none, 0, []⟩

/-- `iperf_reset_test`, which releases the JSON. -/
def ServerTest.reset (test : ServerTest) : ServerTest :=
  { test with jsonOutputString := none, resets := test.resets + 1 }

/-- `iperf3rs_run_server_once`. -/
def runServerOnce (mode : ServerMode) (session : Session) (test : ServerTest) : ℤ × ServerTest :=
  let test := { test with
    jsonOutputString := session.json.or test.jsonOutputString
    serverLastRunRc := session.rc }
  if session.rc < 0 ∧ mode.jsonOutput ∧ session.jsonTop then
    match session.finished with
    | none => (-2, test)
    | some text => (session.rc, { test with jsonOutputString := some text })
  else (session.rc, test)

def runServerIteration (mode : ServerMode) (session : Session) (test : ServerTest) :
    Flow Error ServerTest :=
  let (rc, test) := runServerOnce mode session test
  let test := { test with retainedJson := test.jsonOutputString }
  if session.interrupted then .stop test
  else if rc < -1 then
    .fail ⟨.libiperf, "iperf server exited with error: " ++ session.error⟩ test
  else
    let test := if rc < 0 then
        { test with recovered := test.recovered ++
            ["iperf server recovered from error: " ++ session.error] }
      else test
    let test := test.reset
    if mode.oneOff ∧ rc ≠ 2 then
      if rc < 0 ∧ session.authError then .next test else .stop test
    else .next test

def runServer (mode : ServerMode) (sessions : List Session) (test : ServerTest) :
    LoopRun Error ServerTest :=
  runLoop (runServerIteration mode) (fun _ test => test) sessions test

namespace Session

variable (mode : ServerMode) (session : Session)

/-- The error is to be part of the JSON. -/
def reportsError : Bool := session.rc < 0 && mode.jsonOutput && session.jsonTop

/-- What the session returns. An error that cannot be written is fatal. -/
def code : ℤ :=
  if session.reportsError mode ∧ session.finished = none then -2 else session.rc

def output : Option String :=
  if session.reportsError mode then session.finished.or session.json else session.json

def resets : Bool := !session.interrupted && -1 ≤ session.code mode

def goesOn : Bool :=
  session.resets mode && (!mode.oneOff || session.code mode == 2 ||
    (session.code mode < 0 && session.authError))

def warnings : List String :=
  if session.resets mode ∧ session.code mode < 0 then
    ["iperf server recovered from error: " ++ session.error]
  else []

def result : Except Error Unit :=
  if !session.interrupted && session.code mode < -1 then
    .error ⟨.libiperf, "iperf server exited with error: " ++ session.error⟩
  else .ok ()

end Session

/-- A test that has been served. -/
def ServerTest.served (mode : ServerMode) (test : ServerTest) (session : Session) : ServerTest where
  jsonOutputString := if session.resets mode then none else session.output mode
  serverLastRunRc := session.rc
  retainedJson := session.output mode
  resets := test.resets + if session.resets mode then 1 else 0
  recovered := test.recovered ++ session.warnings mode

theorem runServerOnce_eq (mode : ServerMode) (session : Session) {test : ServerTest}
    (hclear : test.jsonOutputString = none) :
    runServerOnce mode session test = (session.code mode, { test with
      jsonOutputString := session.output mode
      serverLastRunRc := session.rc }) := by
  have hreports : (session.rc < 0 ∧ mode.jsonOutput = true ∧ session.jsonTop = true) ↔
      session.reportsError mode = true := by
    simp [Session.reportsError, and_assoc]
  simp only [runServerOnce, hclear, Option.or_none, hreports, Session.code, Session.output]
  by_cases h : session.reportsError mode = true
  · cases hfinished : session.finished <;> simp [h]
  · simp [h]

theorem runServerIteration_eq (mode : ServerMode) (session : Session) {test : ServerTest}
    (hclear : test.jsonOutputString = none) :
    runServerIteration mode session test =
      if session.goesOn mode then .next (test.served mode session)
      else match session.result mode with
        | .ok _ => .stop (test.served mode session)
        | .error e => .fail e (test.served mode session) := by
  rw [runServerIteration, runServerOnce_eq mode session hclear]
  simp only [ServerTest.served, ServerTest.reset, Session.goesOn, Session.result,
    Session.warnings, Session.resets]
  by_cases hinterrupted : session.interrupted = true
  · simp [hinterrupted]
  · rw [Bool.not_eq_true] at hinterrupted
    by_cases hfatal : session.code mode < -1
    · have hle : ¬ -1 ≤ session.code mode := by omega
      simp [hinterrupted, hfatal, hle]
    · have hle : -1 ≤ session.code mode := by omega
      by_cases hneg : session.code mode < 0
      · have htwo : session.code mode ≠ 2 := by omega
        by_cases honeOff : mode.oneOff = true <;> by_cases hauth : session.authError = true <;>
          simp [hinterrupted, hfatal, hle, hneg, htwo, honeOff, hauth]
      · by_cases htwo : session.code mode = 2
        · simp [hinterrupted, htwo]
        · by_cases honeOff : mode.oneOff = true <;>
            simp [hinterrupted, hfatal, hle, hneg, htwo, honeOff]

theorem served_clear {mode : ServerMode} {session : Session} (h : session.goesOn mode = true)
    (test : ServerTest) : (test.served mode session).jsonOutputString = none := by
  rw [Session.goesOn, Bool.and_eq_true] at h
  simp [ServerTest.served, h.1]

/-- The tests that a server takes are those up to the first that it does not go on after. -/
def servedSessions (mode : ServerMode) (sessions : List Session) : List Session :=
  sessions.takeWhile (·.goesOn mode) ++ (sessions.dropWhile (·.goesOn mode)).head?.toList

def endOfServer (mode : ServerMode) (sessions : List Session) : Option (Except Error Unit) :=
  (sessions.dropWhile (·.goesOn mode)).head?.map (·.result mode)

theorem runServer_eq (mode : ServerMode) (sessions : List Session) {test : ServerTest}
    (hclear : test.jsonOutputString = none) :
    (runServer mode sessions test).state =
        (servedSessions mode sessions).foldl (ServerTest.served mode) test ∧
      (runServer mode sessions test).result = endOfServer mode sessions := by
  obtain ⟨hlast, hrun⟩ := runLoop_takeWhile (runServerIteration mode) (fun _ test => test)
    (·.goesOn mode) (ServerTest.served mode) (fun test => test.jsonOutputString = none)
    (fun session test hclear hgo =>
      ⟨by rw [runServerIteration_eq mode session hclear, if_pos hgo], served_clear hgo test⟩)
    sessions hclear
  rw [runServer, hrun, servedSessions, endOfServer, List.foldl_append]
  cases hrest : sessions.dropWhile (·.goesOn mode) with
  | nil => exact ⟨rfl, rfl⟩
  | cons last later =>
    have hstop : ¬ last.goesOn mode = true := by
      have hhead := List.head?_dropWhile_not (·.goesOn mode) sessions
      rw [hrest] at hhead
      simpa using hhead
    simp only [runLoop, runServerIteration_eq mode last hlast, if_neg hstop]
    cases hresult : last.result mode with
    | ok u => exact ⟨rfl, by simp [LoopRun.result, hresult]⟩
    | error e => exact ⟨rfl, by simp [LoopRun.result, hresult]⟩

theorem foldl_served (mode : ServerMode) (sessions : List Session) (test : ServerTest) :
    let last := sessions.foldl (ServerTest.served mode) test
    last.retainedJson = (sessions.getLast?.map (·.output mode)).getD test.retainedJson ∧
      last.resets = test.resets + sessions.countP (·.resets mode) ∧
      last.recovered = test.recovered ++ sessions.flatMap (·.warnings mode) := by
  induction sessions generalizing test with
  | nil => simp
  | cons session sessions ih =>
    have hh := ih (test.served mode session)
    simp only [List.foldl_cons, List.flatMap_cons, List.countP_cons]
    refine ⟨?_, ?_, ?_⟩
    · rw [hh.1]
      cases sessions with
      | nil => simp [ServerTest.served]
      | cons next sessions => simp [List.getLast?_cons]
    · rw [hh.2.1]
      simp only [ServerTest.served]
      omega
    · rw [hh.2.2]
      simp [ServerTest.served]

/-- A server takes one test after the other up to the first that is interrupted, fatal, or the one
a one-off server has been waiting for, which a failed authentication and an idle restart are not.
It returns what this test makes of it, the error of a fatal one and no other, and keeps the JSON of
this test alone. Every test before has been reset, and its error printed. -/
theorem runServer_sessions (mode : ServerMode) (sessions : List Session) :
    let run := runServer mode sessions .start
    let served := servedSessions mode sessions
    served <+: sessions ∧ run.result = endOfServer mode sessions ∧
      run.state.retainedJson = (served.getLast?.map (·.output mode)).getD none ∧
      run.state.resets = served.countP (·.resets mode) ∧
      run.state.recovered = served.flatMap (·.warnings mode) := by
  obtain ⟨hstate, hresult⟩ := @runServer_eq mode sessions .start rfl
  obtain ⟨hjson, hresets, hrecovered⟩ := foldl_served mode (servedSessions mode sessions) .start
  have htaken : servedSessions mode sessions <+: sessions := by
    refine ⟨(sessions.dropWhile (·.goesOn mode)).tail, ?_⟩
    have hwhole : sessions.takeWhile (·.goesOn mode) ++ sessions.dropWhile (·.goesOn mode) =
        sessions := List.takeWhile_append_dropWhile
    rw [servedSessions, List.append_assoc]
    cases hrest : sessions.dropWhile (·.goesOn mode) with
    | nil => simpa [hrest] using hwhole
    | cons last later => simpa [hrest] using hwhole
  simp only [hstate, hresult]
  refine ⟨htaken, trivial, hjson, ?_, ?_⟩
  · rw [hresets]
    simp [ServerTest.start]
  · rw [hrecovered]
    simp [ServerTest.start]

end Iperf3Rs
