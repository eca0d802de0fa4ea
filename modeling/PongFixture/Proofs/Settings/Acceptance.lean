import PongFixture.Proofs.Settings.Reading
import PongFixture.Proofs.Toml.Range

/-!
# Which settings files are accepted

A document is accepted for what its known settings are, one by one: the sections that are there must
be sections, the fields that are there must be texts, and the timeout a whole number of seconds.
Nothing else matters. So two documents that have the same known settings, in whatever order, under
whatever kind of table and among whatever other keys, are accepted alike and say the same.

The bound of the timeout is not checked where it is decoded: no document holds a greater number.
-/

set_option autoImplicit false

namespace PongFixture.Settings

open Toml

/-- An item that is taken for a section: a table, an array, or a moment, which is a section without
known fields. -/
inductive Sectional : Item → Prop
  | table (form : TableForm) (entries : Entries) (extent : Option Extent) :
      Sectional (.table form entries extent)
  | array (items : List Item) (extent : Extent) : Sectional (.array items extent)
  | tables (rows : List Item) (extent : Extent) : Sectional (.tables rows extent)
  | moment (extent : Extent) : Sectional (.moment extent)

/-- What the known settings of a document must be. -/
structure Acceptable (entries : Entries) : Prop where
  telnet : ∀ item ∈ entries.find? "telnet", Sectional item
  ssh : ∀ item ∈ entries.find? "ssh", Sectional item
  logging : ∀ item ∈ entries.find? "logging", Sectional item
  telnetListen : ∀ item ∈ fieldOf? (entries.find? "telnet") "listen" 0, ∃ value, IsText item value
  sshListen : ∀ item ∈ fieldOf? (entries.find? "ssh") "listen" 0, ∃ value, IsText item value
  username : ∀ item ∈ fieldOf? (entries.find? "ssh") "username" 1, ∃ value, IsText item value
  password : ∀ item ∈ fieldOf? (entries.find? "ssh") "password" 2, ∃ value, IsText item value
  channelOpenTimeout : ∀ item ∈ fieldOf? (entries.find? "ssh") "channel_open_timeout" 3,
    ∃ seconds ≤ Choice.greatestTimeout, IsSeconds item seconds
  level : ∀ item ∈ fieldOf? (entries.find? "logging") "level" 0, ∃ value, IsText item value

/-- A section may be missing, and one that is there has the form of a section. -/
theorem isSection_iff {item? : Option Item} :
    IsSection item? ↔ ∀ item ∈ item?, Sectional item := by
  unfold IsSection
  have each : ∀ item, (Shape.ofItem? item).isSome ↔ Sectional item := by
    intro item
    cases item with
    | table form entries extent => exact ⟨fun _ => .table form entries extent, fun _ => rfl⟩
    | array items extent => exact ⟨fun _ => .array items extent, fun _ => rfl⟩
    | tables rows extent => exact ⟨fun _ => .tables rows extent, fun _ => rfl⟩
    | moment extent => exact ⟨fun _ => .moment extent, fun _ => rfl⟩
    | text | number | boolean => exact ⟨fun h => (nomatch h), fun h => (nomatch h)⟩
  simp only [each]

/-- Something is related to an optional value, unless the value is there and nothing is related to
it. -/
theorem exists_rel_iff {α β : Type} {related : α → β → Prop} {value? : Option α} :
    (∃ other?, Option.Rel related value? other?) ↔
      ∀ value ∈ value?, ∃ other, related value other := by
  cases value? with
  | none => exact ⟨fun _ _ h => (nomatch h), fun _ => ⟨none, .none⟩⟩
  | some value =>
    constructor
    · rintro ⟨_, ⟨h⟩⟩ _ ⟨⟩
      exact ⟨_, h⟩
    · intro h
      obtain ⟨other, hother⟩ := h value rfl
      exact ⟨some other, .some hother⟩

/-! ## The bound of the timeout -/

/-- The fields of what is in range are in range. -/
theorem inRange_of_field {item? : Option Item} (inRange : ∀ item ∈ item?, item.InRange)
    {name : String} {position : Nat} {field : Item}
    (h : fieldOf? item? name position = some field) : field.InRange := by
  obtain ⟨shape, hshape, hfield⟩ := Option.bind_eq_some_iff.mp h
  obtain ⟨item, rfl, hitem⟩ := Option.bind_eq_some_iff.mp hshape
  have hin := inRange item rfl
  cases hin with
  | table form extent each =>
    cases hitem
    obtain ⟨entry, hentry, rfl⟩ := Option.map_eq_some_iff.mp hfield
    exact each entry (List.mem_of_find?_eq_some hentry)
  | array extent each =>
    cases hitem
    exact each field (List.mem_of_getElem? hfield)
  | tables extent each =>
    cases hitem
    exact each field (List.mem_of_getElem? hfield)
  | moment extent =>
    cases hitem
    cases hfield
  | text | number | boolean => cases hitem

/-- A number of seconds that is in range is no more than the greatest timeout. -/
theorem seconds_le {item : Item} (inRange : item.InRange) {seconds : Nat}
    (h : IsSeconds item seconds) : seconds ≤ Choice.greatestTimeout := by
  obtain ⟨extent, rfl⟩ := h
  cases inRange with
  | number _ bounds =>
    obtain ⟨-, below⟩ := bounds
    unfold integerBound at below
    unfold Choice.greatestTimeout
    omega

/-- What stands under a name in a table that is in range is in range. -/
theorem InRange.item {entries : Entries} (inRange : entries.InRange) (name : String) :
    ∀ item ∈ entries.find? name, item.InRange := by
  intro item hitem
  obtain ⟨entry, hentry, rfl⟩ := Option.map_eq_some_iff.mp hitem
  exact inRange entry (List.mem_of_find?_eq_some hentry)

/-! ## Acceptance -/

/-- A document whose numbers are in range makes a choice where its known settings are acceptable. -/
theorem exists_choice_iff {entries : Entries} (inRange : entries.InRange) :
    (∃ choice, Choice.Of entries choice) ↔ Acceptable entries := by
  constructor
  · rintro ⟨choice, h⟩
    refine ⟨isSection_iff.mp h.telnet, isSection_iff.mp h.ssh, isSection_iff.mp h.logging,
      exists_rel_iff.mp ⟨_, h.telnetListen⟩, exists_rel_iff.mp ⟨_, h.sshListen⟩,
      exists_rel_iff.mp ⟨_, h.username⟩, exists_rel_iff.mp ⟨_, h.password⟩, ?_,
      exists_rel_iff.mp ⟨_, h.level⟩⟩
    intro item hitem
    obtain ⟨seconds, hseconds⟩ := exists_rel_iff.mp ⟨_, h.channelOpenTimeout⟩ item hitem
    have hin := inRange_of_field (InRange.item inRange "ssh") hitem
    exact ⟨seconds, seconds_le hin hseconds, hseconds⟩
  · intro h
    obtain ⟨telnetListen, htelnetListen⟩ := exists_rel_iff.mpr h.telnetListen
    obtain ⟨sshListen, hsshListen⟩ := exists_rel_iff.mpr h.sshListen
    obtain ⟨username, husername⟩ := exists_rel_iff.mpr h.username
    obtain ⟨password, hpassword⟩ := exists_rel_iff.mpr h.password
    obtain ⟨level, hlevel⟩ := exists_rel_iff.mpr h.level
    obtain ⟨timeout, htimeout⟩ := exists_rel_iff.mpr fun item hitem =>
      (h.channelOpenTimeout item hitem).imp fun _ hseconds => hseconds.2
    exact ⟨⟨telnetListen, sshListen, username, password, timeout, level⟩,
      isSection_iff.mpr h.telnet, isSection_iff.mpr h.ssh, isSection_iff.mpr h.logging,
      htelnetListen, hsshListen, husername, hpassword, htimeout, hlevel⟩

/-- The text of a document is accepted exactly if the document is acceptable. -/
theorem File.parse_isOk_iff {text : List Char} {document : Document}
    (h : Document.parse? text = some document) :
    (∃ file, File.parse text = .ok file) ↔ Acceptable document.entries := by
  rw [← exists_choice_iff (Document.entries_inRange h)]
  constructor
  · rintro ⟨file, hfile⟩
    obtain ⟨choice, hchoice, -⟩ := (File.parse_eq_ok_iff h).mp hfile
    exact ⟨choice, hchoice⟩
  · rintro ⟨choice, hchoice⟩
    exact ⟨_, (File.parse_eq_ok_iff h).mpr ⟨choice, hchoice, rfl⟩⟩

/-! ## Documents with the same settings -/

mutual

/-- Two items have the same value, wherever they stand and whatever forms their tables have. -/
inductive Alike : Item → Item → Prop
  | text (value : String) (extent extent' : Extent) :
      Alike (.text value extent) (.text value extent')
  | number (value : Number) (extent extent' : Extent) :
      Alike (.number value extent) (.number value extent')
  | boolean (value : Bool) (extent extent' : Extent) :
      Alike (.boolean value extent) (.boolean value extent')
  | moment (extent extent' : Extent) : Alike (.moment extent) (.moment extent')
  | array {items items' : List Item} (extent extent' : Extent)
      (each : List.Forall₂ Alike items items') : Alike (.array items extent) (.array items' extent')
  | table {entries entries' : Entries} (form form' : TableForm) (extent extent' : Option Extent)
      (each : AlikeEntries entries entries') :
      Alike (.table form entries extent) (.table form' entries' extent')
  | tables {rows rows' : List Item} (extent extent' : Extent)
      (each : List.Forall₂ Alike rows rows') : Alike (.tables rows extent) (.tables rows' extent')

/-- Two tables have the same values under the same names, in the same order. -/
inductive AlikeEntries : Entries → Entries → Prop
  | nil : AlikeEntries [] []
  | cons (name : String) (extent extent' : Extent) {item item' : Item} {entries entries' : Entries}
      (first : Alike item item') (rest : AlikeEntries entries entries') :
      AlikeEntries ((⟨name, extent⟩, item) :: entries) ((⟨name, extent'⟩, item') :: entries')

end

/-- The entries of a table under some names. -/
def known (names : List String) (entries : Entries) : Entries :=
  entries.filter fun entry => decide (entry.1.name ∈ names)

/-- Two tables agree under some names: in some order, the one has there what the other has, related
entry by entry. What else they have makes no difference. -/
def AgreeOn (names : List String) (related : String → Item → Item → Prop)
    (first second : Entries) : Prop :=
  ∃ middle, (known names first).Perm middle ∧
    List.Forall₂ (fun entry other => entry.1.name = other.1.name ∧
      related entry.1.name entry.2 other.2) middle (known names second)

/-- The fields of a section. -/
def fieldNames : String → List String
  | "telnet" => ["listen"]
  | "ssh" => ["listen", "username", "password", "channel_open_timeout"]
  | "logging" => ["level"]
  | _ => []

/-- Two sections agree: as tables under the names of their fields, or as items of any kind. -/
inductive SameSection (names : List String) : Item → Item → Prop
  | table {entries entries' : Entries} (form form' : TableForm) (extent extent' : Option Extent)
      (agree : AgreeOn names (fun _ => Alike) entries entries') :
      SameSection names (.table form entries extent) (.table form' entries' extent')
  | alike {item item' : Item} (alike : Alike item item') : SameSection names item item'

/-- Two documents agree in the known settings. -/
def SameSettings (first second : Entries) : Prop :=
  AgreeOn ["telnet", "ssh", "logging"] (fun name => SameSection (fieldNames name)) first second

/-- Whatever is in the first of two lists related entry by entry has a counterpart in the second. -/
theorem exists_of_mem_left {α β : Type} {related : α → β → Prop} {first : List α} {second : List β}
    (h : List.Forall₂ related first second) {value : α} (member : value ∈ first) :
    ∃ other ∈ second, related value other := by
  induction h with
  | nil => cases member
  | cons hhead _ ih =>
    rcases List.mem_cons.mp member with rfl | member
    · exact ⟨_, List.mem_cons_self, hhead⟩
    · obtain ⟨other, hother, hrelated⟩ := ih member
      exact ⟨other, List.mem_cons_of_mem _ hother, hrelated⟩

section Agree

variable {names : List String} {related : String → Item → Item → Prop} {first second : Entries}

/-- What one of two tables that agree has under a name, the other has too. -/
theorem AgreeOn.find?_some (agree : AgreeOn names related first second) (distinct : second.Distinct)
    {name : String} (hname : name ∈ names) {item : Item} (h : first.find? name = some item) :
    ∃ other, second.find? name = some other ∧ related name item other := by
  obtain ⟨middle, perm, each⟩ := agree
  obtain ⟨key, rfl, member⟩ := Entries.mem_of_find? h
  have hknown : (key, item) ∈ known names first :=
    List.mem_filter.mpr ⟨member, by simpa using hname⟩
  obtain ⟨⟨key', other⟩, hother, same, hrelated⟩ := exists_of_mem_left each (perm.mem_iff.mp hknown)
  have hfind := distinct.find?_of_mem (List.mem_filter.mp hother).1
  refine ⟨other, ?_, hrelated⟩
  rw [show key.name = key'.name from same]
  exact hfind

/-- Tables that agree on some names give related items for each of them. -/
theorem AgreeOn.find? (agree : AgreeOn names related first second) (distinct : first.Distinct)
    (distinct' : second.Distinct) {name : String} (hname : name ∈ names) :
    Option.Rel (related name) (first.find? name) (second.find? name) := by
  cases hfirst : first.find? name with
  | some item =>
    obtain ⟨other, hother, hrelated⟩ := agree.find?_some distinct' hname hfirst
    rw [hother]
    exact .some hrelated
  | none =>
    cases hsecond : second.find? name with
    | none => exact .none
    | some other =>
      obtain ⟨middle, perm, each⟩ := agree
      obtain ⟨key, rfl, member⟩ := Entries.mem_of_find? hsecond
      have hknown : (key, other) ∈ known names second :=
        List.mem_filter.mpr ⟨member, by simpa using hname⟩
      obtain ⟨⟨key', item⟩, hitem, same, -⟩ := exists_of_mem_left each.flip hknown
      have hfind := distinct.find?_of_mem (List.mem_filter.mp (perm.mem_iff.mpr hitem)).1
      rw [show key'.name = key.name from same, hfirst] at hfind
      cases hfind

end Agree

/-- Tables that are alike give items that are alike for every name. -/
theorem AlikeEntries.find? {entries entries' : Entries} (alike : AlikeEntries entries entries')
    (name : String) : Option.Rel Alike (entries.find? name) (entries'.find? name) := by
  induction entries generalizing entries' with
  | nil =>
    cases alike
    exact .none
  | cons entry entries ih =>
    cases alike with
    | cons key extent extent' first rest =>
      by_cases named : key = name
      · simpa [Entries.find?, named] using Option.Rel.some first
      · simpa [Entries.find?, named] using ih rest

/-- Lists related entry by entry have related items at every position. -/
theorem getElem?_rel {α β : Type} {related : α → β → Prop} {first : List α} {second : List β}
    (h : List.Forall₂ related first second) (position : Nat) :
    Option.Rel related first[position]? second[position]? := by
  induction h generalizing position with
  | nil => exact .none
  | cons hhead _ ih =>
    cases position with
    | zero => exact .some hhead
    | succ position => exact ih position

/-- Sections that agree have the same fields. -/
theorem SameSection.field {names : List String} {item item' : Item}
    (same : SameSection names item item') (distinct : item.Distinct) (distinct' : item'.Distinct) :
    (Sectional item → Sectional item') ∧ ∀ name ∈ names, ∀ position,
      Option.Rel Alike (fieldOf? (some item) name position)
        (fieldOf? (some item') name position) := by
  cases same with
  | table form form' extent extent' agree =>
    refine ⟨fun _ => .table .., ?_⟩
    intro name hname position
    exact agree.find? (Item.distinct_table.mp distinct) (Item.distinct_table.mp distinct') hname
  | alike alike =>
    cases alike with
    | table form form' extent extent' each =>
      refine ⟨fun _ => .table .., ?_⟩
      intro name _ position
      exact each.find? name
    | array extent extent' each =>
      refine ⟨fun _ => .array .., ?_⟩
      intro name _ position
      exact getElem?_rel each position
    | tables extent extent' each =>
      refine ⟨fun _ => .tables .., ?_⟩
      intro name _ position
      exact getElem?_rel each position
    | moment extent extent' => exact ⟨fun _ => .moment .., fun _ _ _ => .none⟩
    | text | number | boolean => exact ⟨fun h => (nomatch h), fun _ _ _ => .none⟩

/-- Where sections agree, one of them is a section if the other is, and they have the same fields. -/
theorem section_of_rel {names : List String} {first? second? : Option Item}
    (same : Option.Rel (SameSection names) first? second?)
    (distinct : ∀ item ∈ first?, item.Distinct) (distinct' : ∀ item ∈ second?, item.Distinct) :
    (IsSection first? → IsSection second?) ∧ ∀ name ∈ names, ∀ position,
      Option.Rel Alike (fieldOf? first? name position) (fieldOf? second? name position) := by
  cases same with
  | none => exact ⟨fun h => h, fun _ _ _ => .none⟩
  | some same =>
    obtain ⟨hsectional, hfields⟩ := same.field (distinct _ rfl) (distinct' _ rfl)
    refine ⟨?_, hfields⟩
    rw [isSection_iff, isSection_iff]
    rintro h _ ⟨⟩
    exact hsectional (h _ rfl)

/-- What is like a text is the same text. -/
theorem Alike.isText (item item' : Item) (value : String) (alike : Alike item item')
    (h : IsText item value) : IsText item' value := by
  obtain ⟨extent, rfl⟩ := h
  cases alike
  exact ⟨_, rfl⟩

/-- What is like a number of seconds is the same number. -/
theorem Alike.isSeconds (item item' : Item) (value : Nat) (alike : Alike item item')
    (h : IsSeconds item value) : IsSeconds item' value := by
  obtain ⟨extent, rfl⟩ := h
  cases alike
  exact ⟨_, rfl⟩

/-- What one of two fields that are alike is chosen as, the other is. -/
theorem rel_of_alike {α : Type} {holds : Item → α → Prop}
    (carry : ∀ item item' value, Alike item item' → holds item value → holds item' value)
    {first? second? : Option Item} {value? : Option α} (alike : Option.Rel Alike first? second?)
    (h : Option.Rel holds first? value?) : Option.Rel holds second? value? := by
  cases alike with
  | none =>
    cases h
    exact .none
  | some alike =>
    cases h with
    | some h => exact .some (carry _ _ _ alike h)

/-- Documents that agree in the known settings make the same choice. -/
theorem Choice.Of.of_sameSettings {first second : Entries} {choice : Choice}
    (h : Choice.Of first choice) (same : SameSettings first second) (distinct : first.Distinct)
    (distinct' : second.Distinct) : Choice.Of second choice := by
  have part : ∀ name ∈ ["telnet", "ssh", "logging"],
      (IsSection (first.find? name) → IsSection (second.find? name)) ∧
        ∀ field ∈ fieldNames name, ∀ position,
          Option.Rel Alike (fieldOf? (first.find? name) field position)
            (fieldOf? (second.find? name) field position) := by
    intro name hname
    exact section_of_rel (same.find? distinct distinct' hname)
      (fun item hitem => distinct.item hitem) fun item hitem => distinct'.item hitem
  obtain ⟨htelnet, telnetField⟩ := part "telnet" (by decide)
  obtain ⟨hssh, sshField⟩ := part "ssh" (by decide)
  obtain ⟨hlogging, loggingField⟩ := part "logging" (by decide)
  constructor
  · exact htelnet h.telnet
  · exact hssh h.ssh
  · exact hlogging h.logging
  · exact rel_of_alike Alike.isText (telnetField "listen" (by decide) 0) h.telnetListen
  · exact rel_of_alike Alike.isText (sshField "listen" (by decide) 0) h.sshListen
  · exact rel_of_alike Alike.isText (sshField "username" (by decide) 1) h.username
  · exact rel_of_alike Alike.isText (sshField "password" (by decide) 2) h.password
  · exact rel_of_alike Alike.isSeconds (sshField "channel_open_timeout" (by decide) 3)
      h.channelOpenTimeout
  · exact rel_of_alike Alike.isText (loggingField "level" (by decide) 0) h.level

end PongFixture.Settings
