import PongFixture.Proofs.Settings.Acceptance
import PongFixture.Proofs.Toml.Layout

/-!
# What is written in a settings file is what it says

A settings file can be written in many ways: each section under its header, by dotted keys, between
braces or as an array of its fields in their order, the sections and the fields in any order, and
unknown keys and tables among them. Whatever way is taken, the file is accepted and says what is
written: the settings that have a value are that value, all others are the built-in ones.

With `Acceptance` this settles what any text is decoded to.
-/

set_option autoImplicit false

namespace PongFixture.Settings

open Toml

/-- What is written as a section: a table or an array. -/
inductive WrittenSection : Written → Prop
  | table (pairs : List (String × Written)) : WrittenSection (.table pairs)
  | array (items : List Written) : WrittenSection (.array items)

/-- What is written in a field of a section: by its name, or in its position. -/
def writtenField? (written? : Option Written) (name : String) (position : Nat) : Option Written :=
  match written? with
  | some (.table pairs) => pairs.lookup name
  | some (.array items) => items[position]?
  | _ => none

/-- A document writes a choice: its known sections are written as sections, and each known field
has the value that is chosen, or none. -/
structure Choice.WrittenBy (choice : Choice) (layout : Layout) : Prop where
  telnet : ∀ written ∈ layout.value? "telnet", WrittenSection written
  ssh : ∀ written ∈ layout.value? "ssh", WrittenSection written
  logging : ∀ written ∈ layout.value? "logging", WrittenSection written
  telnetListen : writtenField? (layout.value? "telnet") "listen" 0 = choice.telnetListen.map .text
  sshListen : writtenField? (layout.value? "ssh") "listen" 0 = choice.sshListen.map .text
  username : writtenField? (layout.value? "ssh") "username" 1 = choice.username.map .text
  password : writtenField? (layout.value? "ssh") "password" 2 = choice.password.map .text
  channelOpenTimeout : writtenField? (layout.value? "ssh") "channel_open_timeout" 3 =
    choice.channelOpenTimeout.map .number
  level : writtenField? (layout.value? "logging") "level" 0 = choice.level.map .text

/-- What denotes a section as it is written is a section. -/
theorem isSection_of_written {written? : Option Written} {item? : Option Item}
    (denotes : Option.Rel Written.Denotes written? item?)
    (sections : ∀ written ∈ written?, WrittenSection written) : IsSection item? := by
  rw [isSection_iff]
  rintro item hitem
  cases denotes with
  | none => cases hitem
  | some denotes =>
    cases hitem
    cases sections _ rfl with
    | table pairs =>
      cases denotes with
      | table form extent lists => exact .table ..
    | array items =>
      cases denotes with
      | array extent each => exact .array ..

/-- The fields of a section denote those of the section as it is written. -/
theorem field_of_written {written? : Option Written} {item? : Option Item}
    (denotes : Option.Rel Written.Denotes written? item?) (name : String) (position : Nat) :
    Option.Rel Written.Denotes (writtenField? written? name position)
      (fieldOf? item? name position) := by
  cases denotes with
  | none => exact .none
  | some denotes =>
    cases denotes with
    | table form extent lists => exact lists.find? name
    | array extent each => exact getElem?_rel each position
    | text | number | boolean => exact .none

/-- A field in which a value is written holds that value. -/
theorem rel_of_written {α : Type} {holds : Item → α → Prop} {write : α → Written}
    (reads : ∀ value item, (write value).Denotes item → holds item value)
    {written? : Option Written} {item? : Option Item} {value? : Option α}
    (denotes : Option.Rel Written.Denotes written? item?) (written : written? = value?.map write) :
    Option.Rel holds item? value? := by
  subst written
  cases value? with
  | none =>
    rw [eq_none_of_rel denotes]
    exact .none
  | some value =>
    obtain ⟨item, rfl, hitem⟩ := exists_of_rel denotes
    exact .some (reads value item hitem)

/-- What denotes a text as it is written is that text. -/
theorem isText_of_denotes (value : String) (item : Item)
    (h : (Written.text value).Denotes item) : IsText item value := by
  cases h with
  | text value extent => exact ⟨extent, rfl⟩

/-- What denotes a number as it is written is that number of seconds. -/
theorem isSeconds_of_denotes (value : Nat) (item : Item)
    (h : (Written.number value).Denotes item) : IsSeconds item value := by
  cases h with
  | number value extent => exact ⟨extent, rfl⟩

/-- A document that shows a layout which writes a choice makes that choice. -/
theorem Choice.Of.of_writtenBy {choice : Choice} {layout : Layout} (h : choice.WrittenBy layout)
    {entries : Entries} (shown : ∀ name,
      Option.Rel Written.Denotes (layout.value? name) (entries.find? name)) :
    Choice.Of entries choice := by
  have field := fun name => field_of_written (shown name)
  constructor
  · exact isSection_of_written (shown "telnet") h.telnet
  · exact isSection_of_written (shown "ssh") h.ssh
  · exact isSection_of_written (shown "logging") h.logging
  · exact rel_of_written isText_of_denotes (field "telnet" "listen" 0) h.telnetListen
  · exact rel_of_written isText_of_denotes (field "ssh" "listen" 0) h.sshListen
  · exact rel_of_written isText_of_denotes (field "ssh" "username" 1) h.username
  · exact rel_of_written isText_of_denotes (field "ssh" "password" 2) h.password
  · exact rel_of_written isSeconds_of_denotes (field "ssh" "channel_open_timeout" 3)
      h.channelOpenTimeout
  · exact rel_of_written isText_of_denotes (field "logging" "level" 0) h.level

/-- A document that writes a choice is read as that choice laid over the built-in settings. -/
theorem parse_print_layout {layout : Layout} (consistent : layout.Consistent) {choice : Choice}
    (h : choice.WrittenBy layout) :
    File.parse layout.print = .ok (choice.laidOver .builtIn) := by
  obtain ⟨document, hdocument, shown⟩ := Layout.parse?_print consistent
  exact (File.parse_eq_ok_iff hdocument).mpr ⟨choice, .of_writtenBy h shown, rfl⟩

/-! ## Sections under headers -/

/-- A field with a value, if it is chosen. -/
def chosenPair {α : Type} (write : α → Written) (name : String) (value : Option α) :
    List (String × Written) :=
  (value.map fun value => (name, write value)).toList

/-- A choice as a document with every section under its header. -/
def Choice.layout (choice : Choice) : Layout :=
  { top := []
    tables :=
      [("telnet", chosenPair .text "listen" choice.telnetListen),
        ("ssh",
          chosenPair .text "listen" choice.sshListen ++
            chosenPair .text "username" choice.username ++
            chosenPair .text "password" choice.password ++
            chosenPair .number "channel_open_timeout" choice.channelOpenTimeout),
        ("logging", chosenPair .text "level" choice.level)] }

/-- The line for a text that may be chosen is printed as the choice writes it. -/
theorem print_chosenText (name : String) (bare : writeKey name = name.toList)
    (value : Option String) :
    ((chosenPair .text name value).map fun pair => Line.assign [] pair.1 pair.2).flatMap
        Line.print =
      Choice.writeText name value := by
  cases value with
  | none => rfl
  | some value =>
    simp [chosenPair, Line.print, writePath, bare, assignment, Written.print, Choice.writeText,
      Choice.writeLine]

/-- The line for a number that may be chosen is printed as the choice writes it. -/
theorem print_chosenNumber (name : String) (bare : writeKey name = name.toList)
    (value : Option Nat) :
    ((chosenPair .number name value).map fun pair => Line.assign [] pair.1 pair.2).flatMap
        Line.print =
      Choice.writeNumber name value := by
  cases value with
  | none => rfl
  | some value =>
    simp [chosenPair, Line.print, writePath, bare, assignment, Written.print, Choice.writeNumber,
      Choice.writeLine]

/-- The header of a section is printed as the choice writes it. -/
theorem print_header (name : String) (bare : writeKey name = name.toList) :
    (Line.header [] name).print = Choice.writeHeader name := by
  simp [Line.print, writePath, bare, Choice.writeHeader]

/-- The layout of a choice is printed as the choice is. -/
theorem Choice.print_layout (choice : Choice) : choice.layout.print = choice.print := by
  have listen := print_chosenText "listen" (by decide)
  have username := print_chosenText "username" (by decide)
  have password := print_chosenText "password" (by decide)
  have level := print_chosenText "level" (by decide)
  have timeout := print_chosenNumber "channel_open_timeout" (by decide)
  have telnetHeader := print_header "telnet" (by decide)
  have sshHeader := print_header "ssh" (by decide)
  have loggingHeader := print_header "logging" (by decide)
  simp only [Layout.print, Layout.lines, Choice.layout, Layout.tableLines, List.map_nil,
    List.nil_append, List.flatMap_cons, List.flatMap_nil, List.flatMap_append, List.append_nil,
    List.map_append, listen, username, password, level, timeout, telnetHeader, sshHeader,
    loggingHeader]
  simp only [Choice.print, List.append_assoc]

/-- What may be chosen under a name is found under it. -/
theorem lookup_chosenPair {α : Type} (write : α → Written) (name : String) (value : Option α) :
    (chosenPair write name value).lookup name = value.map write := by
  cases value <;> simp [chosenPair]

/-- What may be chosen under one name is not found under another. -/
theorem lookup_chosenPair_other {α : Type} (write : α → Written) {name other : String}
    (distinct : other ≠ name) (value : Option α) :
    (chosenPair write name value).lookup other = none := by
  cases value <;> simp [chosenPair, List.lookup_cons, beq_false_of_ne distinct]

/-- A pair for what may be chosen has a value that is chosen. -/
theorem mem_chosenPair {α : Type} {write : α → Written} {name : String} {value : Option α}
    {pair : String × Written} (h : pair ∈ chosenPair write name value) :
    ∃ given ∈ value, pair = (name, write given) := by
  obtain ⟨given, hgiven, rfl⟩ := Option.map_eq_some_iff.mp (Option.mem_toList.mp h)
  exact ⟨given, hgiven, rfl⟩

/-- The layout of a choice that can be written is consistent. -/
theorem Choice.consistent_layout {choice : Choice} (writable : choice.Writable) :
    choice.layout.Consistent := by
  constructor
  · show List.Pairwise _ [["telnet"], ["ssh"], ["logging"]]
    decide
  · intro table member
    simp only [Choice.layout, List.mem_cons, List.not_mem_nil, or_false] at member
    rcases member with rfl | rfl | rfl
    · cases choice.telnetListen <;> simp [chosenPair]
    · cases choice.sshListen <;> cases choice.username <;> cases choice.password <;>
        cases choice.channelOpenTimeout <;> simp [chosenPair]
    · cases choice.level <;> simp [chosenPair]
  · intro given member
    cases member
  · have text : ∀ {name : String} {value : Option String},
        ∀ pair ∈ chosenPair .text name value, pair.2.Fits (maxDepth - 1) := by
      intro name value pair hpair
      obtain ⟨given, -, rfl⟩ := mem_chosenPair hpair
      exact .text _ given
    intro table member pair hpair
    simp only [Choice.layout, List.mem_cons, List.not_mem_nil, or_false] at member
    rcases member with rfl | rfl | rfl
    · exact text pair hpair
    · simp only [List.mem_append] at hpair
      rcases hpair with ((hlisten | husername) | hpassword) | htimeout
      · exact text pair hlisten
      · exact text pair husername
      · exact text pair hpassword
      · obtain ⟨seconds, hseconds, rfl⟩ := mem_chosenPair htimeout
        have bounded := writable seconds hseconds
        apply Written.Fits.number
        unfold Choice.greatestTimeout at bounded
        unfold integerBound
        omega
    · exact text pair hpair

/-- The layout of a choice writes it. -/
theorem Choice.writtenBy_layout (choice : Choice) : choice.WrittenBy choice.layout := by
  have telnet : choice.layout.value? "telnet" =
      some (.table (chosenPair .text "listen" choice.telnetListen)) := rfl
  have ssh : choice.layout.value? "ssh" =
      some (.table (chosenPair .text "listen" choice.sshListen ++
        chosenPair .text "username" choice.username ++
        chosenPair .text "password" choice.password ++
        chosenPair .number "channel_open_timeout" choice.channelOpenTimeout)) := rfl
  have logging : choice.layout.value? "logging" =
      some (.table (chosenPair .text "level" choice.level)) := rfl
  constructor
  · rw [telnet]
    rintro _ ⟨⟩
    exact .table _
  · rw [ssh]
    rintro _ ⟨⟩
    exact .table _
  · rw [logging]
    rintro _ ⟨⟩
    exact .table _
  · rw [telnet]
    exact lookup_chosenPair ..
  all_goals
    simp [ssh, logging, writtenField?, List.lookup_append, lookup_chosenPair,
      lookup_chosenPair_other]

/-- What is printed for a choice is read as that choice laid over the built-in settings. -/
theorem Choice.parse_print {choice : Choice} (writable : choice.Writable) :
    File.parse choice.print = .ok (choice.laidOver .builtIn) := by
  rw [← choice.print_layout]
  exact parse_print_layout (consistent_layout writable) choice.writtenBy_layout

/-! ## Any text -/

/-- Whatever text is a document, it is accepted where its known sections are tables, arrays or
moments, its known fields texts, and its timeout a number of seconds in range; it then says the
choice that is written in it, over the built-in settings. Other documents that have the same known
settings say the same. And every choice that is written, in any of the ways in which sections can
be, is what is read. -/
theorem settings_of_document {text : List Char} {document : Document}
    (h : Document.parse? text = some document) :
    ((∃ file, File.parse text = .ok file) ↔ Acceptable document.entries) ∧
      (∀ file, File.parse text = .ok file ↔
        ∃ choice, Choice.Of document.entries choice ∧ choice.laidOver .builtIn = file) ∧
      (∀ other found, Document.parse? other = some found →
        SameSettings document.entries found.entries →
        ∀ file, File.parse text = .ok file → File.parse other = .ok file) ∧
      (∀ layout choice, Layout.Consistent layout → Choice.WrittenBy choice layout →
        File.parse layout.print = .ok (choice.laidOver .builtIn)) ∧
      ∀ choice, Choice.Writable choice →
        File.parse choice.print = .ok (choice.laidOver .builtIn) := by
  refine ⟨File.parse_isOk_iff h, fun file => File.parse_eq_ok_iff h, ?_, ?_, ?_⟩
  · intro other found hfound same file hfile
    obtain ⟨choice, hchoice, rfl⟩ := (File.parse_eq_ok_iff h).mp hfile
    apply (File.parse_eq_ok_iff hfound).mpr
    exact ⟨choice, hchoice.of_sameSettings same (Document.entries_distinct h)
      (Document.entries_distinct hfound), rfl⟩
  · intro layout choice consistent written
    exact parse_print_layout consistent written
  · intro choice writable
    exact Choice.parse_print writable

/-- Dotted keys with others between them, an array, braces and a header in one file. -/
theorem settings_of_document_in_mixed_ways :
    let layout : Layout :=
      { top :=
          [⟨some "ssh", "username", .text "a"⟩, ⟨none, "telnet", .array [.text "[::1]:1"]⟩,
            ⟨none, "extra", .table [("x y", .number 1)]⟩, ⟨some "ssh", "listen", .text "b"⟩]
        tables := [("logging", [("level", .text "debug"), ("colour", .boolean true)])] }
    let choice : Choice := ⟨some "[::1]:1", some "b", some "a", none, none, some "debug"⟩
    String.ofList layout.print =
        "ssh.username = \"a\"\ntelnet = [\"[::1]:1\"]\nextra = \x7b\"x y\" = 1\x7d\n" ++
          "ssh.listen = \"b\"\n[logging]\nlevel = \"debug\"\ncolour = true\n" ∧
      layout.Consistent ∧ choice.WrittenBy layout ∧
      ∃ document, Document.parse? layout.print = some document ∧ Acceptable document.entries ∧
        File.parse layout.print =
          .ok ⟨⟨"[::1]:1"⟩, ⟨"b", "a", "password", 20⟩, ⟨"debug"⟩⟩ := by
  intro layout choice
  have text : ∀ depth value, (Written.text value).Fits depth := .text
  have consistent : layout.Consistent := by
    refine ⟨by decide, by decide, ?_, ?_⟩
    · intro given member
      simp only [layout, List.mem_cons, List.not_mem_nil, or_false] at member
      rcases member with rfl | rfl | rfl | rfl
      · exact text _ _
      · show (Written.array [.text "[::1]:1"]).Fits (78 + 1)
        exact .array (by simp [text])
      · show (Written.table [("x y", .number 1)]).Fits (78 + 1)
        apply Written.Fits.table (by decide)
        rintro pair (_ | ⟨_, ⟨⟩⟩)
        exact .number _ (by decide)
      · exact text _ _
    · intro table member pair hpair
      simp only [layout, List.mem_cons, List.not_mem_nil, or_false] at member
      subst member
      simp only [List.mem_cons, List.not_mem_nil, or_false] at hpair
      rcases hpair with rfl | rfl
      · exact text _ _
      · exact .boolean _ _
  have written : choice.WrittenBy layout := by
    constructor
    · rintro _ ⟨⟩
      exact .array _
    · rintro _ ⟨⟩
      exact .table _
    · rintro _ ⟨⟩
      exact .table _
    all_goals rfl
  obtain ⟨document, parsed, -⟩ := Layout.parse?_print consistent
  obtain ⟨accepted, -, -, spelled, -⟩ := settings_of_document parsed
  have read := spelled layout choice consistent written
  exact ⟨by decide +kernel, consistent, written, document, parsed, accepted.mp ⟨_, read⟩, read⟩

/-- A date under the name of a section is no table and no array, and is accepted as a section
without known fields. -/
theorem parse_of_date_for_section :
    ∃ document item, Document.parse? "ssh=1979-05-27".toList = some document ∧
      document.entries.find? "ssh" = some item ∧
      (∀ form entries extent, item ≠ .table form entries extent) ∧
      (∀ items extent, item ≠ .array items extent) ∧ (∀ rows extent, item ≠ .tables rows extent) ∧
      File.parse "ssh=1979-05-27".toList = .ok .builtIn := by
  have parsed : Document.parse? "ssh=1979-05-27".toList =
      some ⟨"ssh=1979-05-27".toList, [(⟨"ssh", ⟨14, 11⟩⟩, .moment ⟨10, 0⟩)]⟩ := by
    with_unfolding_all rfl
  have accepted : File.parse "ssh=1979-05-27".toList = .ok .builtIn := by decide +kernel
  have found : Entries.find? "ssh" [(⟨"ssh", ⟨14, 11⟩⟩, Item.moment ⟨10, 0⟩)] =
      some (.moment ⟨10, 0⟩) := rfl
  refine ⟨_, .moment ⟨10, 0⟩, parsed, found, ?_, ?_, ?_, accepted⟩
  · intro form entries extent same
    cases same
  · intro items extent same
    cases same
  · intro rows extent same
    cases same

end PongFixture.Settings
