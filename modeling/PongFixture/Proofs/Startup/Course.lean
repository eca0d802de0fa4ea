import PongFixture.Startup.Report
import PongFixture.Proofs.Settings.Layers

/-!
# The course of a start

A start is decided by its first failure. Before the program has its settings nothing is done that
anyone could notice: there is no event and no socket, only a report and an exit code. Once it has
them it says so, and then starts the servers that are selected, telnet's before the SSH server.

What starting comes to is one of four courses, with what the telnet server has done in each:
telnet's bind fails, the SSH server is not selected, its bind fails, or it listens. Everything that
is said of a start afterwards is read off its course.
-/

set_option autoImplicit false

namespace PongFixture.Startup

open Address Settings

variable (surroundings : Surroundings) (settings : Settings) (arguments : List Bytes)

/-! ## The first failing stage -/

/-- The stage at which settings cannot be had, where those before it have succeeded: the command
line, reading the file, its contents, the telnet address, the SSH address. -/
inductive FirstFailure : Failure → Prop
  | commandLine {refusal : Options.Refusal} (refused : Options.parse arguments = .error refusal) :
      FirstFailure (.commandLine refusal)
  | reading {options : Options} {path : Bytes} {error : ConfigError}
      (line : Options.parse arguments = .ok options) (named : options.config = some path)
      (unread : readText path (surroundings.files path) = .error error) :
      FirstFailure (.settings error)
  | contents {options : Options} {path : Bytes} {text : List Char} {error : ConfigError}
      (line : Options.parse arguments = .ok options) (named : options.config = some path)
      (read : readText path (surroundings.files path) = .ok text)
      (unfit : parseFile path text = .error error) :
      FirstFailure (.settings error)
  | telnetAddress {options : Options} {given : Choice}
      (line : Options.parse arguments = .ok options)
      (file : Given surroundings.files options.config given)
      (bad : Address.parse? (telnetText options given).toList = none) :
      FirstFailure (.settings (.invalidAddress (telnetText options given)))
  | sshAddress {options : Options} {given : Choice}
      (line : Options.parse arguments = .ok options)
      (file : Given surroundings.files options.config given)
      (good : (Address.parse? (telnetText options given).toList).isSome)
      (bad : Address.parse? (sshText options given).toList = none) :
      FirstFailure (.settings (.invalidAddress (sshText options given)))

/-- The settings file fails if it cannot be read as text, or its text does not fit. -/
theorem fileOf_eq_error_iff {files : Bytes → FileContent} {config : Option Bytes}
    {error : ConfigError} :
    fileOf files config = .error error ↔
      ∃ path, config = some path ∧ (readText path (files path) = .error error ∨
        ∃ text, readText path (files path) = .ok text ∧ parseFile path text = .error error) := by
  cases config with
  | none => simp [fileOf]
  | some path => simp only [fileOf, bind_eq_error_iff, Option.some.injEq, exists_eq_left']

/-- Loading fails on the file, or else on an address that is none. -/
theorem load_eq_error_iff {files : Bytes → FileContent} {options : Options} {error : ConfigError} :
    load files options = .error error ↔
      fileOf files options.config = .error error ∨
        ∃ given, Given files options.config given ∧
          ∃ text, error = .invalidAddress text ∧ Refused options given text := by
  rw [load_eq]
  show (do let file ← fileOf files options.config; merge options file) = _ ↔ _
  rw [bind_eq_error_iff]
  apply or_congr_right
  constructor
  · rintro ⟨file, hfile, herror⟩
    obtain ⟨given, hgiven, rfl⟩ := fileOf_eq_ok_iff.mp hfile
    exact ⟨given, hgiven, merge_eq_error_iff.mp herror⟩
  · rintro ⟨given, hgiven, herror⟩
    exact ⟨_, fileOf_eq_ok_iff.mpr ⟨given, hgiven, rfl⟩, merge_eq_error_iff.mpr herror⟩

/-- A command line that is understood leaves only the settings to fail. -/
theorem configure_of_parse {options : Options} (line : Options.parse arguments = .ok options) :
    configure surroundings arguments =
      (load surroundings.files options).mapError Failure.settings := by
  simp only [configure, line]
  cases load surroundings.files options <;> rfl

/-- Renaming errors neither makes nor hides one. -/
theorem mapError_eq_error_iff {ε ε' α : Type} {result : Except ε α} {f : ε → ε'} {last : ε'} :
    result.mapError f = .error last ↔ ∃ error, result = .error error ∧ f error = last := by
  cases result <;> simp [Except.mapError]

/-- A start without settings fails as its first failing stage does. -/
theorem configure_eq_error_iff {failure : Failure} :
    configure surroundings arguments = .error failure ↔
      FirstFailure surroundings arguments failure := by
  cases line : Options.parse arguments with
  | error refusal =>
    have refuses : configure surroundings arguments = .error (.commandLine refusal) := by
      unfold configure
      rw [line]
    rw [refuses]
    constructor
    · intro h
      cases h
      exact .commandLine line
    · rintro (refused | ⟨ok, _, _⟩ | ⟨ok, _, _, _⟩ | ⟨ok, _, _⟩ | ⟨ok, _, _, _⟩)
      · rw [line] at refused
        cases refused
        rfl
      all_goals
        rw [line] at ok
        cases ok
  | ok options =>
    rw [configure_of_parse surroundings arguments line, mapError_eq_error_iff]
    constructor
    · rintro ⟨error, herror, rfl⟩
      rcases load_eq_error_iff.mp herror with hfile | ⟨given, hgiven, text, rfl, refused⟩
      · obtain ⟨path, named, unread | ⟨text, read, unfit⟩⟩ := fileOf_eq_error_iff.mp hfile
        · exact .reading line named unread
        · exact .contents line named read unfit
      · rcases refused with ⟨bad, rfl⟩ | ⟨good, bad, rfl⟩
        · exact .telnetAddress line hgiven bad
        · exact .sshAddress line hgiven good bad
    · rintro (refused | ⟨ok, named, unread⟩ | ⟨ok, named, read, unfit⟩ | ⟨ok, hgiven, bad⟩ |
        ⟨ok, hgiven, good, bad⟩)
      · rw [line] at refused
        cases refused
      all_goals
        rw [line] at ok
        cases ok
        refine ⟨_, load_eq_error_iff.mpr ?_, rfl⟩
      · exact .inl (fileOf_eq_error_iff.mpr ⟨_, named, .inl unread⟩)
      · exact .inl (fileOf_eq_error_iff.mpr ⟨_, named, .inr ⟨_, read, unfit⟩⟩)
      · exact .inr ⟨_, hgiven, _, rfl, .inl ⟨bad, rfl⟩⟩
      · exact .inr ⟨_, hgiven, _, rfl, .inr ⟨good, bad, rfl⟩⟩

/-! ## Starting the servers -/

/-- What the telnet server has done when it is not selected, or listens. -/
inductive TelnetUp : List Deed → List Endpoint → Prop
  | unselected (not_selected : settings.protocol.runsTelnet = false) : TelnetUp [] []
  | listening {actual : Endpoint} (selected : settings.protocol.runsTelnet = true)
      (bound : surroundings.bind [] settings.telnetListen = .ok actual) :
      TelnetUp [.bind settings.telnetListen,
        .report (Listener.listening Telnet.protocolName actual.display)] [actual]

/-- The report of the host key. -/
def keyReport : Event :=
  Ssh.Server.keyGenerated settings.username (context surroundings settings).fingerprint

/-- What starting the servers comes to, after the first report. -/
inductive Course : List Deed → List Endpoint → Option Failure → Prop
  | telnetFails {fault : Fault} (selected : settings.protocol.runsTelnet = true)
      (fails : surroundings.bind [] settings.telnetListen = .error fault) :
      Course [.bind settings.telnetListen] [] (some (.bind fault))
  | withoutSsh {telnet : List Deed} {bound : List Endpoint}
      (up : TelnetUp surroundings settings telnet bound)
      (not_selected : settings.protocol.runsSsh = false) :
      Course telnet bound none
  | sshFails {telnet : List Deed} {bound : List Endpoint} {fault : Fault}
      (up : TelnetUp surroundings settings telnet bound)
      (selected : settings.protocol.runsSsh = true)
      (fails : surroundings.bind bound settings.sshListen = .error fault) :
      Course (telnet ++ [.makeKey, .report (keyReport surroundings settings),
        .bind settings.sshListen]) bound (some (.bind fault))
  | withSsh {telnet : List Deed} {bound : List Endpoint} {actual : Endpoint}
      (up : TelnetUp surroundings settings telnet bound)
      (selected : settings.protocol.runsSsh = true)
      (binds : surroundings.bind bound settings.sshListen = .ok actual) :
      Course (telnet ++ [.makeKey, .report (keyReport surroundings settings),
        .bind settings.sshListen,
        .report (Listener.listening Ssh.protocolName actual.display)]) (bound ++ [actual]) none

variable {surroundings settings}

/-- A server that is selected starts after a launch that has not failed. -/
theorem Launch.andIf_true {launch : Launch} (next : List Endpoint → Launch)
    (h : launch.failure = none) :
    launch.andIf true next =
      ⟨launch.deeds ++ (next launch.bound).deeds, (next launch.bound).bound,
        (next launch.bound).failure⟩ := by
  simp [Launch.andIf, Launch.andThen, h]

/-- The SSH server, after a telnet server that has not failed. -/
theorem course_of_telnetUp {telnet : List Deed} {bound : List Endpoint} {begun : Launch}
    {first : Deed} (up : TelnetUp surroundings settings telnet bound)
    (deeds : begun.deeds = first :: telnet) (hbound : begun.bound = bound)
    (running : begun.failure = none) :
    ∃ deeds bound failure,
      begun.andIf settings.protocol.runsSsh
        (startSsh surroundings (context surroundings settings) settings.sshListen) =
          ⟨first :: deeds, bound, failure⟩ ∧
        Course surroundings settings deeds bound failure := by
  cases selected : settings.protocol.runsSsh with
  | false =>
    refine ⟨telnet, bound, none, ?_, .withoutSsh up selected⟩
    obtain ⟨_, _, _⟩ := begun
    cases deeds
    cases hbound
    cases running
    rfl
  | true =>
    rw [Launch.andIf_true _ running, deeds, hbound]
    cases hbind : surroundings.bind bound settings.sshListen with
    | error fault =>
      refine ⟨_, _, _, ?_, .sshFails up selected hbind⟩
      simp [startSsh, Launch.andThen, listen, hbind, keyReport, context, Ssh.Context.withHostKey]
    | ok actual =>
      refine ⟨_, _, _, ?_, .withSsh up selected hbind⟩
      simp [startSsh, Launch.andThen, listen, hbind, keyReport, context, Ssh.Context.withHostKey]

/-- A launch reports that it starts, and then takes one of its courses. -/
theorem launch_course (surroundings : Surroundings) (settings : Settings) :
    ∃ deeds bound failure,
      launch surroundings settings = ⟨.report (starting settings) :: deeds, bound, failure⟩ ∧
        Course surroundings settings deeds bound failure := by
  unfold launch
  cases selected : settings.protocol.runsTelnet with
  | false =>
    rw [Launch.andIf_false]
    exact course_of_telnetUp (.unselected selected) rfl rfl rfl
  | true =>
    rw [Launch.andIf_true _ rfl]
    cases hbind : surroundings.bind [] settings.telnetListen with
    | error fault =>
      refine ⟨_, _, _, ?_, .telnetFails selected hbind⟩
      simp [startTelnet, listen, hbind, Launch.andIf, Launch.andThen]
    | ok actual =>
      apply course_of_telnetUp (.listening selected hbind) <;> simp [startTelnet, listen, hbind]

/-! ## What a start comes to -/

variable (surroundings settings)

/-- The bind of the telnet server fails, where that is selected. -/
def TelnetFails (fault : Fault) : Prop :=
  settings.protocol.runsTelnet = true ∧
    surroundings.bind [] settings.telnetListen = .error fault

/-- The bind of the SSH server fails, where that is selected and the telnet server is up or not
selected. -/
def SshFails (fault : Fault) : Prop :=
  settings.protocol.runsSsh = true ∧ ∃ telnet bound, TelnetUp surroundings settings telnet bound ∧
    surroundings.bind bound settings.sshListen = .error fault

/-- A program with its settings: it says first that it starts. A server that is not selected is not
bound, and every event after the first is the other one's. Where telnet's bind fails there is no
host key and no other bind. The program fails exactly with the fault of a selected server's bind,
and else has announced each selected server once, telnet first, the host key before SSH. -/
structure Starts (launch : Launch) : Prop where
  first : launch.deeds.head? = some (.report (starting settings))
  withoutTelnet : settings.protocol.runsTelnet = false →
    launch.binds = [settings.sshListen] ∧
      ∀ event ∈ launch.events.tail, event = keyReport surroundings settings ∨
        ∃ address, event = Listener.listening Ssh.protocolName address
  withoutSsh : settings.protocol.runsSsh = false →
    launch.binds = [settings.telnetListen] ∧ Deed.makeKey ∉ launch.deeds ∧
      ∀ event ∈ launch.events.tail,
        ∃ address, event = Listener.listening Telnet.protocolName address
  telnetFails : ∀ fault, TelnetFails surroundings settings fault →
    launch.binds = [settings.telnetListen] ∧ Deed.makeKey ∉ launch.deeds
  fails : ∀ failure, launch.failure = some failure ↔
    ∃ fault, failure = .bind fault ∧
      (TelnetFails surroundings settings fault ∨ SshFails surroundings settings fault)
  runs : launch.failure = none → ∃ telnet ssh : List Event,
    launch.events = starting settings :: (telnet ++ ssh) ∧
      (if settings.protocol.runsTelnet then
        ∃ actual, surroundings.bind [] settings.telnetListen = .ok actual ∧
          telnet = [Listener.listening Telnet.protocolName actual.display]
      else telnet = []) ∧
      if settings.protocol.runsSsh then
        ∃ deeds bound actual, TelnetUp surroundings settings deeds bound ∧
          surroundings.bind bound settings.sshListen = .ok actual ∧
          ssh = [keyReport surroundings settings,
            Listener.listening Ssh.protocolName actual.display]
      else ssh = []

variable {surroundings settings}

section TelnetUp

variable {telnet : List Deed} {bound : List Endpoint}

/-- Where the telnet server is not selected it has done nothing. -/
theorem TelnetUp.of_unselected (up : TelnetUp surroundings settings telnet bound)
    (unselected : settings.protocol.runsTelnet = false) : telnet = [] ∧ bound = [] := by
  cases up with
  | unselected => exact ⟨rfl, rfl⟩
  | listening selected => rw [unselected] at selected; cases selected

/-- Where the telnet server is selected it is bound, and has said where it listens. -/
theorem TelnetUp.of_selected (up : TelnetUp surroundings settings telnet bound)
    (selected : settings.protocol.runsTelnet = true) :
    ∃ actual, surroundings.bind [] settings.telnetListen = .ok actual ∧ bound = [actual] ∧
      telnet = [.bind settings.telnetListen,
        .report (Listener.listening Telnet.protocolName actual.display)] := by
  cases up with
  | unselected not_selected => rw [selected] at not_selected; cases not_selected
  | listening _ hbound => exact ⟨_, hbound, rfl, rfl⟩

/-- A telnet server that is up has not failed. -/
theorem TelnetUp.not_fails (up : TelnetUp surroundings settings telnet bound) (fault : Fault) :
    ¬ TelnetFails surroundings settings fault := by
  rintro ⟨selected, fails⟩
  obtain ⟨actual, hbound, -, -⟩ := up.of_selected selected
  rw [fails] at hbound
  cases hbound

/-- There is one way only in which the telnet server can be up. -/
theorem TelnetUp.unique {telnet' : List Deed} {bound' : List Endpoint}
    (up : TelnetUp surroundings settings telnet bound)
    (up' : TelnetUp surroundings settings telnet' bound') : telnet = telnet' ∧ bound = bound' := by
  cases selected : settings.protocol.runsTelnet with
  | false =>
    obtain ⟨rfl, rfl⟩ := up.of_unselected selected
    obtain ⟨rfl, rfl⟩ := up'.of_unselected selected
    exact ⟨rfl, rfl⟩
  | true =>
    obtain ⟨actual, hbound, rfl, rfl⟩ := up.of_selected selected
    obtain ⟨actual', hbound', rfl, rfl⟩ := up'.of_selected selected
    rw [hbound] at hbound'
    cases hbound'
    exact ⟨rfl, rfl⟩

/-- A telnet server that is selected has announced itself, and nothing else is reported. -/
theorem TelnetUp.announces (up : TelnetUp surroundings settings telnet bound) :
    if settings.protocol.runsTelnet then
      ∃ actual, surroundings.bind [] settings.telnetListen = .ok actual ∧
        (Launch.mk telnet bound none).events =
          [Listener.listening Telnet.protocolName actual.display]
    else (Launch.mk telnet bound none).events = [] := by
  cases selected : settings.protocol.runsTelnet with
  | false =>
    obtain ⟨rfl, rfl⟩ := up.of_unselected selected
    rfl
  | true =>
    obtain ⟨actual, hbound, rfl, rfl⟩ := up.of_selected selected
    exact ⟨actual, hbound, rfl⟩

end TelnetUp

/-- A course fails exactly with the fault of a server that is selected and cannot be bound. -/
theorem Course.fails {deeds : List Deed} {bound : List Endpoint} {failed : Option Failure}
    (course : Course surroundings settings deeds bound failed) (failure : Failure) :
    failed = some failure ↔ ∃ fault, failure = .bind fault ∧
      (TelnetFails surroundings settings fault ∨ SshFails surroundings settings fault) := by
  constructor
  · rintro rfl
    cases course with
    | telnetFails selected fails => exact ⟨_, rfl, .inl ⟨selected, fails⟩⟩
    | sshFails up selected fails => exact ⟨_, rfl, .inr ⟨selected, _, _, up, fails⟩⟩
  · rintro ⟨fault, rfl, telnetFault | ⟨sshSelected, _, _, up', sshFault⟩⟩
    -- Telnet's bind fails in one course only; in the others that server is up or not selected.
    · cases course with
      | telnetFails _ fails =>
        rw [telnetFault.2] at fails
        cases fails
        rfl
      | withoutSsh up => exact absurd telnetFault (up.not_fails fault)
      | sshFails up => exact absurd telnetFault (up.not_fails fault)
      | withSsh up => exact absurd telnetFault (up.not_fails fault)
    -- What is bound when the SSH server starts is the same in the course and in the fault.
    · cases course with
      | telnetFails selected fails => exact absurd ⟨selected, fails⟩ (up'.not_fails _)
      | withoutSsh _ not_selected =>
        rw [sshSelected] at not_selected
        cases not_selected
      | sshFails up _ fails =>
        obtain ⟨-, rfl⟩ := up.unique up'
        rw [sshFault] at fails
        cases fails
        rfl
      | withSsh up _ binds =>
        obtain ⟨-, rfl⟩ := up.unique up'
        rw [sshFault] at binds
        cases binds

/-- Every choice of protocols selects a server. -/
theorem runsTelnet_or_runsSsh (protocol : Protocol) :
    protocol.runsTelnet = true ∨ protocol.runsSsh = true := by
  cases protocol <;> simp [Protocol.runsTelnet, Protocol.runsSsh]

/-- What is said of a start is read off its course. -/
theorem Course.starts {deeds : List Deed} {bound : List Endpoint} {failed : Option Failure}
    (course : Course surroundings settings deeds bound failed) :
    Starts surroundings settings ⟨.report (starting settings) :: deeds, bound, failed⟩ where
  first := rfl
  withoutTelnet := by
    intro unselected
    have sshSelected : settings.protocol.runsSsh = true := by
      simpa [unselected] using runsTelnet_or_runsSsh settings.protocol
    cases course with
    | telnetFails selected => simp [unselected] at selected
    | withoutSsh _ not_selected => simp [sshSelected] at not_selected
    | sshFails up =>
      obtain ⟨rfl, rfl⟩ := up.of_unselected unselected
      simp [Launch.binds, Launch.events]
    | withSsh up =>
      obtain ⟨rfl, rfl⟩ := up.of_unselected unselected
      simp [Launch.binds, Launch.events]
  withoutSsh := by
    intro unselected
    have telnetSelected : settings.protocol.runsTelnet = true := by
      simpa [unselected] using runsTelnet_or_runsSsh settings.protocol
    cases course with
    | telnetFails => simp [Launch.binds, Launch.events]
    | withoutSsh up =>
      obtain ⟨actual, -, rfl, rfl⟩ := up.of_selected telnetSelected
      simp [Launch.binds, Launch.events]
    | sshFails _ selected => simp [unselected] at selected
    | withSsh _ selected => simp [unselected] at selected
  telnetFails := by
    intro fault fails
    cases course with
    | telnetFails => simp [Launch.binds]
    | withoutSsh up => exact absurd fails (up.not_fails fault)
    | sshFails up => exact absurd fails (up.not_fails fault)
    | withSsh up => exact absurd fails (up.not_fails fault)
  fails := course.fails
  runs := by
    rintro rfl
    cases course with
    | withoutSsh up not_selected =>
      refine ⟨_, [], ?_, up.announces, ?_⟩
      · simp [Launch.events]
      · simp [not_selected]
    | @withSsh telnet bound actual up selected binds =>
      refine ⟨_, [keyReport surroundings settings,
        Listener.listening Ssh.protocolName actual.display], ?_, up.announces, ?_⟩
      · simp [Launch.events]
      · rw [if_pos selected]
        exact ⟨_, _, _, up, binds, rfl⟩

/-! ## The first failure -/

/-- A program that ends with a failure before it has done anything, and with the code of it: two
for a command line that is refused, nought for a text that is asked for, one for the rest. -/
structure EndsAtOnce (surroundings : Surroundings) (environment : Option Bytes)
    (arguments : List Bytes) (failure : Failure) : Prop where
  ended : (start surroundings arguments).failure = some failure
  events : (start surroundings arguments).events = []
  binds : (start surroundings arguments).binds = []
  bound : (start surroundings arguments).bound = []
  console : console surroundings environment arguments = failure.console
  refused : ∀ refusal, failure = .commandLine refusal →
    (Startup.console surroundings environment arguments).exit =
      some (if refusal.isRequest then 0 else 2)
  unsettled : ∀ error, failure = .settings error →
    (Startup.console surroundings environment arguments).exit = some 1

/-- A start that fails ends with the exit code of its failure. -/
theorem exit_console (failure : Failure) : failure.console.exit = some failure.exitCode := by
  cases failure with
  | commandLine refusal => cases h : refusal.isRequest <;> simp [Failure.console, h]
  | _ => rfl

/-- Whatever the arguments, the files and the binds, a start ends with the first stage that fails,
silently and without a socket; and if none does it starts the servers that are selected, and ends
with code one exactly when a bind of one of them fails. -/
theorem first_failure_decides (surroundings : Surroundings) (environment : Option Bytes)
    (arguments : List Bytes) :
    (∀ failure, FirstFailure surroundings arguments failure →
      EndsAtOnce surroundings environment arguments failure) ∧
    ((∀ failure, ¬ FirstFailure surroundings arguments failure) →
      ∃ settings, configure surroundings arguments = .ok settings ∧
        Starts surroundings settings (start surroundings arguments) ∧
        ∀ code, (console surroundings environment arguments).exit = some code ↔
          code = 1 ∧ ∃ fault, TelnetFails surroundings settings fault ∨
            SshFails surroundings settings fault) := by
  constructor
  · intro failure hfailure
    have hconfigure := (configure_eq_error_iff surroundings arguments).mpr hfailure
    have hstart : start surroundings arguments = .failed failure := by
      unfold start
      rw [hconfigure]
    have hconsole : console surroundings environment arguments = failure.console := by
      unfold console
      rw [hconfigure]
    refine ⟨?_, ?_, ?_, ?_, hconsole, ?_, ?_⟩
    · rw [hstart]; rfl
    · rw [hstart]; rfl
    · rw [hstart]; rfl
    · rw [hstart]; rfl
    · rintro refusal rfl
      rw [hconsole, exit_console]
      rfl
    · rintro error rfl
      rw [hconsole, exit_console]
      rfl
  · intro none_fails
    cases hconfigure : configure surroundings arguments with
    | error failure =>
      exact absurd ((configure_eq_error_iff surroundings arguments).mp hconfigure)
        (none_fails failure)
    | ok settings =>
      obtain ⟨deeds, bound, failed, hlaunch, course⟩ := launch_course surroundings settings
      have hstart : start surroundings arguments = launch surroundings settings := by
        unfold start
        rw [hconfigure]
      refine ⟨settings, rfl, ?_, ?_⟩
      · rw [hstart, hlaunch]
        exact course.starts
      · intro code
        have hexit : (console surroundings environment arguments).exit =
            failed.map Failure.exitCode := by
          unfold console
          rw [hconfigure]
          show (launch surroundings settings).failure.map Failure.exitCode = _
          rw [hlaunch]
        rw [hexit, Option.map_eq_some_iff]
        constructor
        · rintro ⟨failure, hfailed, rfl⟩
          obtain ⟨fault, rfl, hfault⟩ := (course.fails failure).mp hfailed
          exact ⟨rfl, fault, hfault⟩
        · rintro ⟨rfl, fault, hfault⟩
          exact ⟨.bind fault, (course.fails _).mpr ⟨fault, rfl, hfault⟩, rfl⟩

end PongFixture.Startup
