import PongFixture.Proofs.Settings.Edited
import PongFixture.Proofs.Settings.Layers
import PongFixture.Proofs.Text.Utf8

/-!
# What a complaint about the settings tells of the password

Two settings files that differ in the password alone are both accepted or both refused. If they are
accepted, the settings are the same but for the password. If they are refused, then for the same thing,
but the complaint shows the line of the file where that begins. So the two complaints are the same only
if this is not the line of the password. In a section between braces or in an array, a field of the
wrong kind may be on one line with the password, and then the complaint shows the password as it is
written.
-/

set_option autoImplicit false

namespace PongFixture.Settings

open Toml Options

/-- The line of a settings file that a complaint shows, if it shows one. -/
def ConfigError.line? : ConfigError → Option Nat
  | .unreadable _ _ => none
  | .malformed _ => none
  | .mismatched _ text mismatch => some (Excerpt.of text mismatch.extent).line
  | .invalidAddress _ => none

variable {swap : Swap}

/-- Two complaints about one file read alike exactly if they are printed alike. -/
theorem message_mismatched_eq_iff {path : Bytes} {text other : List Char}
    {mismatch moved : Mismatch} :
    (ConfigError.mismatched path other moved).message =
        (ConfigError.mismatched path text mismatch).message ↔
      moved.print other = mismatch.print text := by
  unfold ConfigError.message
  exact String.append_right_inj _

/-- Complaints about the same thing in both documents are the same only if it begins on another line
than the text, or the texts are the same. -/
theorem message_replaced_eq_iff {mismatch : Mismatch} (regular : swap.Regular mismatch.extent)
    (path : Bytes) :
    (ConfigError.mismatched path (swap.before ++ swap.there) (mismatch.edit swap)).message =
        (ConfigError.mismatched path (swap.before ++ swap.here) mismatch).message ↔
      (ConfigError.mismatched path (swap.before ++ swap.here) mismatch).line? ≠ some swap.line ∨
        swap.new = swap.old := by
  rw [message_mismatched_eq_iff, ConfigError.line?, ne_eq, Option.some.injEq]
  exact Excerpt.print_eq_iff regular mismatch.reason

/-! ## Laying the command line over the file -/

/-- Another password in the file changes only the password of the settings, and no refusal. -/
theorem merge_with_password (options : Options) (file : File) (password : String) :
    merge options { file with ssh := { file.ssh with password } } =
      (merge options file).map fun settings => { settings with password } := by
  unfold merge
  cases parseAddress (options.telnetListen.getD file.telnet.listen) with
  | error error => rfl
  | ok telnet => cases parseAddress (options.sshListen.getD file.ssh.listen) <;> rfl

/-- The password in force is the one from the file. -/
theorem password_of_merge {options : Options} {file : File} {settings : Settings}
    (h : merge options file = .ok settings) : settings.password = file.ssh.password := by
  unfold merge at h
  simp only [bind_eq_ok_iff, pure, Except.pure, Except.ok.injEq] at h
  obtain ⟨_, _, _, _, rfl⟩ := h
  rfl

/-- Complaints about addresses show no line. -/
theorem line?_ne_of_merge {options : Options} {file : File} {error : ConfigError}
    (h : merge options file = .error error) (line : Nat) : error.line? ≠ some line := by
  unfold merge at h
  simp only [bind_eq_error_iff, parseAddress_eq_error_iff, pure, Except.pure, reduceCtorEq,
    and_false, exists_false, or_false] at h
  obtain ⟨-, rfl⟩ | ⟨_, -, -, rfl⟩ := h <;> exact nofun

/-! ## Reading the file -/

/-- A file whose text parses is decoded, and a mismatch in it is shown in its text. -/
theorem fileOf_of_parsed {files : Bytes → FileContent} {path : Bytes} {text : List Char}
    {entries : Entries} (content : files path = .octets (Utf8.encode text))
    (parsed : Document.parse? text = some ⟨text, entries⟩) :
    fileOf files (some path) =
      (File.ofEntries entries).mapError fun mismatch => .mismatched path text mismatch := by
  have htext : readText path (files path) = .ok text :=
    readText_eq_ok_iff.mpr ⟨_, content, Utf8.decode?_encode text⟩
  unfold fileOf
  simp only [htext, bind, Except.bind]
  unfold parseFile File.parse
  rw [parsed]
  cases h : File.ofEntries entries <;> simp [h, Except.mapError]

/-! ## Two passwords -/

/-- What comes of the files alone. They are accepted with the two passwords, or refused for the same
thing. -/
theorem fileOf_replaced {entries : Entries} {value : String} {files others : Bytes → FileContent}
    {path : Bytes}
    (parsed : Document.parse? (swap.before ++ swap.here) = some ⟨swap.before ++ swap.here, entries⟩)
    (given : PasswordIs swap entries value)
    (content : files path = .octets (Utf8.encode (swap.before ++ swap.here)))
    (moved : others path = .octets (Utf8.encode (swap.before ++ swap.there))) :
    (∃ file, fileOf files (some path) = .ok file ∧ file.ssh.password = value ∧
      fileOf others (some path) =
        .ok { file with ssh := { file.ssh with password := String.ofList swap.newText } }) ∨
    ∃ error other, fileOf files (some path) = .error error ∧
      fileOf others (some path) = .error other ∧
      (other.message = error.message ↔ error.line? ≠ some swap.line ∨ swap.new = swap.old) := by
  obtain ⟨parsed', once, placed⟩ := parse?_replaced parsed given.counted
  have hdistinct : entries.Distinct := Document.entries_distinct parsed
  have hdistinct' : (entries.edit swap).Distinct := Document.entries_distinct parsed'
  have hpair := File.ofEntries_paired hdistinct placed once given
  have hpassword : ∀ file, File.ofEntries entries = .ok file → file.ssh.password = value :=
    fun _ => File.password_eq hdistinct given
  have hpassword' : ∀ file, File.ofEntries (entries.edit swap) = .ok file →
      file.ssh.password = String.ofList swap.newText :=
    fun _ => File.password_eq hdistinct' given.edit
  rw [fileOf_of_parsed content parsed, fileOf_of_parsed moved parsed']
  generalize File.ofEntries entries = one at hpair hpassword ⊢
  generalize File.ofEntries (entries.edit swap) = other at hpair hpassword' ⊢
  cases hpair with
  | @ok file _ same =>
    obtain ⟨password, rfl⟩ := same
    have hnew : password = String.ofList swap.newText := hpassword' _ rfl
    refine .inl ⟨file, rfl, hpassword file rfl, ?_⟩
    rw [hnew]
    rfl
  | error regular => exact .inr ⟨_, _, rfl, rfl, message_replaced_eq_iff regular path⟩

/-- Two settings files that differ in the password alone, and a command line: both are accepted with
the same settings but for the password, or both are refused, and the complaints are the same only where
they do not show the line of the password, or where the passwords are written the same. -/
theorem same_complaint_iff_on_another_line {document : Document} {value : String}
    {options : Options} {files others : Bytes → FileContent}
    (parsed : Document.parse? (swap.before ++ swap.here) = some document)
    (given : PasswordIs swap document.entries value)
    (content : ∀ path ∈ options.config,
      files path = .octets (Utf8.encode (swap.before ++ swap.here)))
    (moved : ∀ path ∈ options.config,
      others path = .octets (Utf8.encode (swap.before ++ swap.there))) :
    (∀ settings, load files options = .ok settings →
      ∃ password, load others options = .ok { settings with password } ∧
        (options.config.isSome →
          settings.password = value ∧ password = String.ofList swap.newText)) ∧
    ∀ error, load files options = .error error →
      ∃ other, load others options = .error other ∧
        (other.message = error.message ↔
          error.line? ≠ some swap.line ∨ swap.new = swap.old) := by
  obtain ⟨entries, -, rfl⟩ := Option.map_eq_some_iff.mp parsed
  simp only [load_eq]
  cases hconfig : options.config with
  | none =>
    constructor
    · intro settings h
      exact ⟨settings.password, h, by simp⟩
    · intro error h
      exact ⟨error, h, iff_of_true rfl (.inl (line?_ne_of_merge h _))⟩
  | some path =>
    rcases fileOf_replaced parsed given (content path hconfig) (moved path hconfig) with
      ⟨file, hfile, hpassword, hother⟩ | ⟨error, other, hfile, hother, hmessage⟩
    · have hmerge : ∀ file : File, (Except.ok file >>= merge options) = merge options file :=
        fun _ => rfl
      rw [hfile, hother, hmerge, hmerge,
        merge_with_password options file (String.ofList swap.newText)]
      constructor
      · intro settings h
        refine ⟨String.ofList swap.newText, by rw [h]; rfl, fun _ => ⟨?_, rfl⟩⟩
        exact (password_of_merge h).trans hpassword
      · intro error h
        exact ⟨error, by rw [h]; rfl, iff_of_true rfl (.inl (line?_ne_of_merge h _))⟩
    · rw [hfile, hother]
      constructor
      · intro settings h
        cases h
      · rintro _ ⟨⟩
        exact ⟨other, rfl, hmessage⟩

/-- A password and a timeout that is none, each on its own line. -/
theorem same_complaint_of_own_lines :
    let swap : Swap :=
      { before := "[ssh]\npassword = ".toList
        quote := '"'
        old := "secret\"".toList
        new := "sesame\"".toList
        after := "\nchannel_open_timeout = \"x\"\n".toList
        oldText := "secret".toList
        newText := "sesame".toList
        isQuote := .inl rfl
        oldRead := by decide
        newRead := by decide
        oldLine := by decide
        newLine := by decide }
    let document : Document := ⟨swap.before ++ swap.here,
      [(⟨"ssh", ⟨52, 49⟩⟩, .table .header
        [(⟨"password", ⟨47, 39⟩⟩, .text "secret" ⟨36, 28⟩),
          (⟨"channel_open_timeout", ⟨27, 7⟩⟩, .text "x" ⟨4, 1⟩)] (some ⟨53, 1⟩))]⟩
    let options : Options := ⟨some (Utf8.ofString "f"), .all, none, none, none⟩
    let files : Bytes → FileContent := fun _ => .octets (Utf8.encode (swap.before ++ swap.here))
    let others : Bytes → FileContent := fun _ => .octets (Utf8.encode (swap.before ++ swap.there))
    Document.parse? (swap.before ++ swap.here) = some document ∧
      PasswordIs swap document.entries "secret" ∧
      ∃ error other, load files options = .error error ∧ load others options = .error other ∧
        other.message = error.message := by
  intro swap document options files others
  have parsed : Document.parse? (swap.before ++ swap.here) = some document := by
    with_unfolding_all rfl
  have given : PasswordIs swap document.entries "secret" := rfl
  have content : ∀ path ∈ options.config,
      files path = .octets (Utf8.encode (swap.before ++ swap.here)) := fun _ _ => rfl
  have moved : ∀ path ∈ options.config,
      others path = .octets (Utf8.encode (swap.before ++ swap.there)) := fun _ _ => rfl
  have refused : load files options = .error (.mismatched (Utf8.ofString "f")
      (swap.before ++ swap.here) ⟨.text "x", .seconds, false, ⟨4, 1⟩⟩) := by
    rw [load_eq, show options.config = some (Utf8.ofString "f") from rfl,
      fileOf_of_parsed (content _ rfl) parsed]
    rfl
  obtain ⟨-, complaints⟩ := same_complaint_iff_on_another_line parsed given content moved
  obtain ⟨other, hother, same⟩ := complaints _ refused
  have third : (Excerpt.of (swap.before ++ swap.here) ⟨4, 1⟩).line = 3 := rfl
  have second : swap.line = 2 := rfl
  refine ⟨parsed, given, _, other, refused, hother, same.mpr (.inl ?_)⟩
  simp [ConfigError.line?, third, second]

/-- A settings file with the password and a timeout that is none on one line. -/
def oneLine (password : String) : List Char :=
  ("ssh = \x7b password = \"" ++ password ++ "\", channel_open_timeout = \"x\" \x7d").toList

/-- A complaint about another field on the line of the password shows the password. -/
theorem complaint_shows_password :
    let options : Options := ⟨some (Utf8.ofString "f"), .all, none, none, none⟩
    let files : String → Bytes → FileContent :=
      fun password _ => .octets (Utf8.encode (oneLine password))
    ∃ error other, load (files "secret") options = .error error ∧
      load (files "sesame") options = .error other ∧ error.message ≠ other.message := by
  intro options files
  have refused : ∀ password, Document.parse? (oneLine password) = some ⟨oneLine password,
        [(⟨"ssh", ⟨57, 54⟩⟩, .table .inline
          [(⟨"password", ⟨49, 41⟩⟩, .text password ⟨38, 30⟩),
            (⟨"channel_open_timeout", ⟨28, 8⟩⟩, .text "x" ⟨5, 2⟩)] (some ⟨51, 0⟩))]⟩ →
      load (files password) options = .error
        (.mismatched (Utf8.ofString "f") (oneLine password) ⟨.text "x", .seconds, false, ⟨5, 2⟩⟩) := by
    intro password parsed
    have content : files password (Utf8.ofString "f") =
        .octets (Utf8.encode (oneLine password)) := rfl
    rw [load_eq, show options.config = some (Utf8.ofString "f") from rfl,
      fileOf_of_parsed content parsed]
    rfl
  refine ⟨_, _, refused "secret" (by with_unfolding_all rfl),
    refused "sesame" (by with_unfolding_all rfl), fun same => ?_⟩
  have printed := message_mismatched_eq_iff.mp same
  unfold Mismatch.print at printed
  have first : Excerpt.of (oneLine "secret") ⟨5, 2⟩ = ⟨1, 53, oneLine "secret", 3⟩ := by
    with_unfolding_all rfl
  have second : Excerpt.of (oneLine "sesame") ⟨5, 2⟩ = ⟨1, 53, oneLine "sesame", 3⟩ := by
    with_unfolding_all rfl
  have shown := Excerpt.content_of_print (by rw [first, second])
    (Excerpt.newline_notMem_content _ _) (Excerpt.newline_notMem_content _ _) printed
  rw [first, second] at shown
  unfold oneLine at shown
  simp at shown

end PongFixture.Settings
