import Mathlib
import PongFixture.Settings.Merge
import PongFixture.Proofs.Settings.Reading

/-!
# The layers of the settings

What a command line says is laid over what a settings file says, and that over the built-in values,
setting by setting. The two addresses are read only when they have been chosen, telnet first. So a
text that another one overrides is never looked at, and the address that is refused is one that the
program would have used.

The command line is taken as the series of options that it spells, and the file as the fields that
its document holds; both are in the statements, not only what the readers make of them.
-/

set_option autoImplicit false

namespace PongFixture.Settings

open Options

/-! ## What is given -/

/-- Nothing is chosen. -/
def Choice.nothing : Choice := ⟨none, none, none, none, none, none⟩

/-- What the settings file of a command line says, if it names one. -/
inductive Given (files : Bytes → FileContent) : Option Bytes → Choice → Prop
  | nothing : Given files none .nothing
  | file {path bytes : Bytes} {text : List Char} {document : Toml.Document} {choice : Choice}
      (content : files path = .octets bytes) (isText : Utf8.decode? bytes = some text)
      (isDocument : Toml.Document.parse? text = some document)
      (chosen : Choice.Of document.entries choice) : Given files (some path) choice

/-- The contents of the settings file of a command line, or the built-in settings. -/
def fileOf (files : Bytes → FileContent) (config : Option Bytes) : Except ConfigError File :=
  match config with
  | none => .ok .builtIn
  | some path => do
    let text ← readText path (files path)
    parseFile path text

/-- Settings are loaded by reading the file and merging the options into it. -/
theorem load_eq (files : Bytes → FileContent) (options : Options) :
    load files options = fileOf files options.config >>= merge options := by
  unfold load fileOf
  cases options.config with
  | none => rfl
  | some path => simp only [bind_assoc]

/-- A file is read as a text exactly if its octets are there and decode to that text. -/
theorem readText_eq_ok_iff {path : Bytes} {content : FileContent} {text : List Char} :
    readText path content = .ok text ↔
      ∃ bytes, content = .octets bytes ∧ Utf8.decode? bytes = some text := by
  cases content with
  | unreadable fault => simp [readText]
  | octets bytes => cases hdecode : Utf8.decode? bytes <;> simp [readText, hdecode]

/-- A text is accepted as a file exactly if it is a document that makes a choice, and the file is
that choice laid over the built-in values. -/
theorem parseFile_eq_ok_iff {path : Bytes} {text : List Char} {file : File} :
    parseFile path text = .ok file ↔
      ∃ document choice, Toml.Document.parse? text = some document ∧
        Choice.Of document.entries choice ∧ choice.laidOver .builtIn = file := by
  unfold parseFile
  cases hparse : Toml.Document.parse? text with
  | none => simp [File.parse, hparse]
  | some document =>
    have hfile : File.parse text = .ok file ↔ _ := File.parse_eq_ok_iff hparse
    rcases hcases : File.parse text with (_ | mismatch) | found
    all_goals
      rw [hcases] at hfile
      simpa using hfile

/-- A settings file is accepted where it says something, and that is laid over the built-in
settings. -/
theorem fileOf_eq_ok_iff {files : Bytes → FileContent} {config : Option Bytes} {file : File} :
    fileOf files config = .ok file ↔
      ∃ given, Given files config given ∧ given.laidOver .builtIn = file := by
  cases config with
  | none =>
    constructor
    · intro h
      cases h
      exact ⟨.nothing, .nothing, rfl⟩
    · rintro ⟨_, ⟨⟩, rfl⟩
      rfl
  | some path =>
    rw [fileOf, bind_eq_ok_iff]
    constructor
    · rintro ⟨text, htext, hfile⟩
      obtain ⟨bytes, content, isText⟩ := readText_eq_ok_iff.mp htext
      obtain ⟨document, choice, isDocument, chosen, same⟩ := parseFile_eq_ok_iff.mp hfile
      exact ⟨choice, .file content isText isDocument chosen, same⟩
    · rintro ⟨given, hgiven, same⟩
      cases hgiven with
      | file content isText isDocument chosen =>
        exact ⟨_, readText_eq_ok_iff.mpr ⟨_, content, isText⟩,
          parseFile_eq_ok_iff.mpr ⟨_, _, isDocument, chosen, same⟩⟩

/-- Where a choice is given, loading merges the options into the choice laid over the built-in
values. -/
theorem load_of_given {files : Bytes → FileContent} {options : Options} {given : Choice}
    (h : Given files options.config given) :
    load files options = merge options (given.laidOver .builtIn) := by
  rw [load_eq, fileOf_eq_ok_iff.mpr ⟨given, h, rfl⟩]
  rfl

/-! ## The effective settings -/

/-- The text of the telnet address that is used. -/
def telnetText (options : Options) (given : Choice) : String :=
  (options.telnetListen.or given.telnetListen).getD "0.0.0.0:2323"

/-- The text of the SSH address that is used. -/
def sshText (options : Options) (given : Choice) : String :=
  (options.sshListen.or given.sshListen).getD "0.0.0.0:2222"

/-- The level of the log that is used. -/
def levelText (options : Options) (given : Choice) : String :=
  (options.logLevel.or given.level).getD "info"

/-- The settings that a command line and a file come to. -/
structure Effective (options : Options) (given : Choice) (settings : Settings) : Prop where
  protocol : settings.protocol = options.protocol
  telnetListen : Address.parse? (telnetText options given).toList = some settings.telnetListen
  sshListen : Address.parse? (sshText options given).toList = some settings.sshListen
  username : settings.username = given.username.getD "testuser"
  password : settings.password = given.password.getD "password"
  channelOpenTimeout : settings.channelOpenTimeout = given.channelOpenTimeout.getD 20
  logLevel : settings.logLevel = levelText options given

/-- The text that is refused: that of the telnet address if it is none, and else that of the SSH
address if it is none. -/
def Refused (options : Options) (given : Choice) (text : String) : Prop :=
  Address.parse? (telnetText options given).toList = none ∧ text = telnetText options given ∨
    (Address.parse? (telnetText options given).toList).isSome ∧
      Address.parse? (sshText options given).toList = none ∧ text = sshText options given

/-- Of two optional values and a last one, the first that is there is taken. -/
theorem getD_or {α : Type} (first second : Option α) (last : α) :
    (first.or second).getD last = first.getD (second.getD last) := by
  cases first <;> rfl

/-- The text for the telnet address comes from the options, else from the file, else from the
built-in values. -/
theorem telnetText_eq (options : Options) (given : Choice) :
    options.telnetListen.getD (given.laidOver .builtIn).telnet.listen =
      telnetText options given := (getD_or _ _ _).symm

/-- The text for the SSH address comes from the options, else from the file, else from the built-in
values. -/
theorem sshText_eq (options : Options) (given : Choice) :
    options.sshListen.getD (given.laidOver .builtIn).ssh.listen = sshText options given :=
  (getD_or _ _ _).symm

/-- The log level comes from the options, else from the file, else from the built-in values. -/
theorem levelText_eq (options : Options) (given : Choice) :
    options.logLevel.getD (given.laidOver .builtIn).logging.level = levelText options given :=
  (getD_or _ _ _).symm

/-- An address is accepted exactly if its text denotes an endpoint. -/
theorem parseAddress_eq_ok_iff {text : String} {endpoint : Address.Endpoint} :
    parseAddress text = .ok endpoint ↔ Address.parse? text.toList = some endpoint := by
  unfold parseAddress
  cases Address.parse? text.toList <;> simp

/-- An address is refused exactly if its text denotes no endpoint, and the refusal names the text.
-/
theorem parseAddress_eq_error_iff {text : String} {error : ConfigError} :
    parseAddress text = .error error ↔
      Address.parse? text.toList = none ∧ error = .invalidAddress text := by
  unfold parseAddress
  cases Address.parse? text.toList <;> simp [eq_comm]

/-- A sequence of two steps fails exactly if the first fails or the second fails after it. -/
theorem bind_eq_error_iff {ε α β : Type} {first : Except ε α} {next : α → Except ε β} {error : ε} :
    (do let value ← first; next value) = .error error ↔
      first = .error error ∨ ∃ value, first = .ok value ∧ next value = .error error := by
  cases first <;> simp [bind, Except.bind]

/-- Merging comes to settings exactly if they are the effective ones. -/
theorem merge_eq_ok_iff {options : Options} {given : Choice} {settings : Settings} :
    merge options (given.laidOver .builtIn) = .ok settings ↔ Effective options given settings := by
  unfold merge
  simp only [telnetText_eq, sshText_eq, levelText_eq, bind_eq_ok_iff, parseAddress_eq_ok_iff, pure,
    Except.pure, Except.ok.injEq]
  constructor
  · rintro ⟨telnet, htelnet, ssh, hssh, rfl⟩
    exact ⟨rfl, htelnet, hssh, rfl, rfl, rfl, rfl⟩
  · rintro ⟨hprotocol, htelnet, hssh, husername, hpassword, htimeout, hlevel⟩
    refine ⟨_, htelnet, _, hssh, ?_⟩
    cases settings
    cases hprotocol
    cases husername
    cases hpassword
    cases htimeout
    cases hlevel
    rfl

/-- Merging fails exactly with an address that is refused. -/
theorem merge_eq_error_iff {options : Options} {given : Choice} {error : ConfigError} :
    merge options (given.laidOver .builtIn) = .error error ↔
      ∃ text, error = .invalidAddress text ∧ Refused options given text := by
  unfold merge Refused
  simp only [telnetText_eq, sshText_eq, bind_eq_error_iff, parseAddress_eq_ok_iff,
    parseAddress_eq_error_iff, pure, Except.pure, reduceCtorEq, and_false, exists_false, or_false]
  constructor
  · rintro (⟨bad, rfl⟩ | ⟨telnet, htelnet, bad, rfl⟩)
    · exact ⟨_, rfl, .inl ⟨bad, rfl⟩⟩
    · exact ⟨_, rfl, .inr ⟨by rw [htelnet]; rfl, bad, rfl⟩⟩
  · rintro ⟨text, rfl, (⟨bad, rfl⟩ | ⟨good, bad, rfl⟩)⟩
    · exact .inl ⟨bad, rfl⟩
    · obtain ⟨telnet, htelnet⟩ := Option.isSome_iff_exists.mp good
      exact .inr ⟨telnet, htelnet, bad, rfl⟩

/-! ## What is overridden -/

/-- Two files differ at most in what a command line overrides. -/
structure OverriddenApart (options : Options) (given other : Choice) : Prop where
  telnetListen : options.telnetListen.isSome ∨ other.telnetListen = given.telnetListen
  sshListen : options.sshListen.isSome ∨ other.sshListen = given.sshListen
  level : options.logLevel.isSome ∨ other.level = given.level
  username : other.username = given.username
  password : other.password = given.password
  channelOpenTimeout : other.channelOpenTimeout = given.channelOpenTimeout

/-- A second layer makes no difference where the first has a value. -/
theorem getD_overridden {α : Type} {first second other : Option α} (last : α)
    (h : first.isSome ∨ other = second) :
    first.getD (other.getD last) = first.getD (second.getD last) := by
  cases first with
  | none => rw [h.resolve_left (by simp)]
  | some value => rfl

/-- A choice that differs only in what the options override is merged to the same. -/
theorem merge_of_overriddenApart {options : Options} {given other : Choice}
    (h : OverriddenApart options given other) :
    merge options (other.laidOver .builtIn) = merge options (given.laidOver .builtIn) := by
  unfold merge Choice.laidOver
  simp only [getD_overridden _ h.telnetListen, getD_overridden _ h.sshListen,
    getD_overridden _ h.level, h.username, h.password, h.channelOpenTimeout]

/-- Whatever command line and settings file are accepted, every setting is that of the first layer
that has it. Loading fails only for an address that is used and is none, telnet's before SSH's, and
names its text. What the command line overrides makes no difference. -/
theorem settings_in_layers {files : Bytes → FileContent} {arguments : List Bytes}
    {options : Options} {file : File} (line : Options.parse arguments = .ok options)
    (accepted : fileOf files options.config = .ok file) :
    ∃ occurrences given,
      Written arguments occurrences ∧ (∀ occurrence ∈ occurrences, occurrence.Valid) ∧
      (occurrences.map Occurrence.option).Nodup ∧ options = denoted occurrences ∧
      Given files options.config given ∧
      (∀ settings, load files options = .ok settings ↔ Effective options given settings) ∧
      (∀ error, load files options = .error error ↔
        ∃ text, error = .invalidAddress text ∧ Refused options given text) ∧
      ∀ others other, Given others options.config other → OverriddenApart options given other →
        load others options = load files options := by
  obtain ⟨occurrences, written, valid, nodup, denotes⟩ := parse_accepted line
  obtain ⟨given, hgiven, -⟩ := fileOf_eq_ok_iff.mp accepted
  refine ⟨occurrences, given, written, valid, nodup, denotes, hgiven, ?_, ?_, ?_⟩
  · intro settings
    rw [load_of_given hgiven]
    exact merge_eq_ok_iff
  · intro error
    rw [load_of_given hgiven]
    exact merge_eq_error_iff
  · intro others other hother apart
    rw [load_of_given hgiven, load_of_given hother]
    exact merge_of_overriddenApart apart

/-- The command line gives a telnet address, and the file one that is none and no SSH address. -/
theorem settings_in_layers_of_bad_address_overridden :
    let files : Bytes → FileContent :=
      fun _ => .octets (Utf8.ofString "[telnet]\nlisten = \"nowhere\"\n")
    let options : Options := ⟨some (Utf8.ofString "f"), .all, some "127.0.0.1:1", none, none⟩
    Options.parse [Utf8.ofString "-c", Utf8.ofString "f",
        Utf8.ofString "--telnet-listen=127.0.0.1:1"] = .ok options ∧
      fileOf files options.config = .ok { File.builtIn with telnet := ⟨"nowhere"⟩ } ∧
      ∃ given, Given files options.config given ∧ telnetText options given = "127.0.0.1:1" ∧
        ∀ settings, load files options = .ok settings ↔ Effective options given settings := by
  intro files options
  have line : Options.parse [Utf8.ofString "-c", Utf8.ofString "f",
      Utf8.ofString "--telnet-listen=127.0.0.1:1"] = .ok options := by cbv
  have accepted : fileOf files options.config = .ok { File.builtIn with telnet := ⟨"nowhere"⟩ } := by
    cbv
  obtain ⟨_, given, -, -, -, -, hgiven, hload, -, -⟩ := settings_in_layers line accepted
  exact ⟨line, accepted, given, hgiven, rfl, hload⟩

end PongFixture.Settings
