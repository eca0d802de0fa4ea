import Mathlib.Data.Option.Defs
import PongFixture.Settings.Choice
import PongFixture.Proofs.Options.Accepted
import PongFixture.Proofs.Toml.Distinct

/-!
# What a settings file says

A settings file is decoded entry by entry, in its own order. What comes of it is said here without
that order: every known field is looked up by the name of its section and its own name, or by its
position in a section that is an array. A field that is there must be of its kind and has the value
written; a field that is missing, or whose section is, has the built-in one.

Decoding a section is a run over its entries. One step changes at most the field that the entry
names, and names are distinct, so a field is decided by the one entry that has its name.
-/

set_option autoImplicit false

namespace PongFixture.Settings

open Toml Options

/-! ## Values -/

/-- An item is a text. -/
def IsText (item : Item) (value : String) : Prop := ∃ extent, item = .text value extent

/-- An item is a number of seconds. -/
def IsSeconds (item : Item) (value : Nat) : Prop := ∃ extent, item = .number (.integer value) extent

/-- An item is decoded as a text exactly if it is one. -/
theorem decodeText_eq_ok_iff {place : Extent} {item : Item} {value : String} :
    decodeText place item = .ok value ↔ IsText item value := by
  cases item <;> simp [decodeText, IsText]

/-- An item is decoded as a number of seconds exactly if it is one. -/
theorem decodeSeconds_eq_ok_iff {place : Extent} {item : Item} {value : Nat} :
    decodeSeconds place item = .ok value ↔ IsSeconds item value := by
  cases item with
  | number number extent =>
    cases number with
    | integer seconds =>
      by_cases negative : seconds < 0
      · simp only [decodeSeconds, if_pos negative, IsSeconds, Item.number.injEq,
          Number.integer.injEq, reduceCtorEq, false_iff, not_exists]
        omega
      · simp only [decodeSeconds, if_neg negative, IsSeconds, Item.number.injEq,
          Number.integer.injEq, Except.ok.injEq, exists_and_left, exists_eq', and_true]
        omega
    | real => simp [decodeSeconds, IsSeconds]
  | _ => simp [decodeSeconds, IsSeconds]

/-- A value is what an item holds, or the built-in one where there is no item. -/
def Decodes {α : Type} (holds : Item → α → Prop) (builtIn : α) : Option Item → α → Prop
  | none, value => value = builtIn
  | some item, value => holds item value

/-- What an optional item says is unique, if what an item says is. -/
theorem Decodes.unique {α : Type} {holds : Item → α → Prop} {builtIn first second : α}
    {item? : Option Item} (hfirst : Decodes holds builtIn item? first)
    (hsecond : Decodes holds builtIn item? second)
    (same : ∀ item one other, holds item one → holds item other → one = other) :
    first = second := by
  cases item? with
  | none => exact hfirst.trans hsecond.symm
  | some item => exact same item first second hfirst hsecond

/-- An item is at most one text. -/
theorem IsText.unique (item : Item) (one other : String) (h : IsText item one)
    (h' : IsText item other) : one = other := by
  obtain ⟨_, rfl⟩ := h
  obtain ⟨_, same⟩ := h'
  cases same
  rfl

/-- An item is at most one number of seconds. -/
theorem IsSeconds.unique (item : Item) (one other : Nat) (h : IsSeconds item one)
    (h' : IsSeconds item other) : one = other := by
  obtain ⟨_, rfl⟩ := h
  obtain ⟨_, same⟩ := h'
  injection same with same
  injection same with same
  exact Int.ofNat_inj.mp same

/-- A position of a list is decoded to what the item there says, or to the built-in value if none is
there. -/
theorem decodeAt_eq_ok_iff {α : Type} {decode : Extent → Item → Except Mismatch α}
    {holds : Item → α → Prop}
    (decoder : ∀ place item value, decode place item = .ok value ↔ holds item value)
    {place : Extent} {items : List Item} {position : Nat} {builtIn value : α} :
    decodeAt decode place items position builtIn = .ok value ↔
      Decodes holds builtIn items[position]? value := by
  unfold decodeAt
  cases items[position]? with
  | none =>
    show Except.ok builtIn = Except.ok value ↔ value = builtIn
    rw [Except.ok.injEq, eq_comm]
  | some item => exact decoder place item value

/-- A position of a list is decoded to the text there, or to the built-in one. -/
theorem decodeAt_text_eq_ok_iff {place : Extent} {items : List Item} {position : Nat}
    {builtIn value : String} :
    decodeAt decodeText place items position builtIn = .ok value ↔
      Decodes IsText builtIn items[position]? value := by
  apply decodeAt_eq_ok_iff
  intro place item value
  exact decodeText_eq_ok_iff

/-- A position of a list is decoded to the number of seconds there, or to the built-in one. -/
theorem decodeAt_seconds_eq_ok_iff {place : Extent} {items : List Item} {position : Nat}
    {builtIn value : Nat} :
    decodeAt decodeSeconds place items position builtIn = .ok value ↔
      Decodes IsSeconds builtIn items[position]? value := by
  apply decodeAt_eq_ok_iff
  intro place item value
  exact decodeSeconds_eq_ok_iff

/-! ## Runs over entries -/

/-- A step over an entry that settles one field: an entry of the name decides the field, and every
other entry leaves it as it is. -/
structure Settles {σ α : Type} (step : σ → Key × Item → Except Mismatch σ) (name : String)
    (holds : Item → α → Prop) (field : σ → α) : Prop where
  own : ∀ state entry next, entry.2.Distinct → entry.1.name = name →
    step state entry = .ok next → holds entry.2 (field next)
  other : ∀ state entry next, entry.2.Distinct → entry.1.name ≠ name →
    step state entry = .ok next → field next = field state

/-- A run over entries of distinct names leaves in a field what the entry of its name holds. -/
theorem Settles.run {σ α : Type} {step : σ → Key × Item → Except Mismatch σ} {name : String}
    {holds : Item → α → Prop} {field : σ → α} (settles : Settles step name holds field)
    {entries : Entries} (distinct : entries.Distinct) :
    ∀ {state last : σ}, entries.foldlM step state = .ok last →
      Decodes holds (field state) (entries.find? name) (field last) := by
  obtain ⟨names, each⟩ := distinct
  induction entries with
  | nil =>
    intro state last h
    cases h
    rfl
  | cons entry entries ih =>
    intro state last h
    rw [List.foldlM_cons, bind_eq_ok_iff] at h
    obtain ⟨next, hstep, hrest⟩ := h
    obtain ⟨fresh, names⟩ := List.nodup_cons.mp names
    have hentry := each entry List.mem_cons_self
    have hlast := ih names (fun later hlater => each later (List.mem_cons_of_mem _ hlater)) hrest
    by_cases named : entry.1.name = name
    -- No later entry has the name, so what this one decides stays to the end.
    · have absent : Entries.find? name entries = none := by
        apply Entries.find?_eq_none_iff.mpr
        intro later hlater same
        exact fresh (List.mem_map.mpr ⟨later, hlater, same.trans named.symm⟩)
      have found : Entries.find? name (entry :: entries) = some entry.2 := by
        simp [Entries.find?, named]
      rw [absent] at hlast
      rw [found, show field last = field next from hlast]
      exact settles.own state entry next hentry named hstep
    · have passed : Entries.find? name (entry :: entries) = Entries.find? name entries := by
        simp [Entries.find?, named]
      rw [passed, ← settles.other state entry next hentry named hstep]
      exact hlast

/-- A run over entries each of which is accepted in every state comes to its end. -/
theorem foldlM_ok {σ ε : Type} {step : σ → Key × Item → Except ε σ} {entries : Entries}
    (accepted : ∀ entry ∈ entries, ∀ state, ∃ next, step state entry = .ok next) (state : σ) :
    ∃ last, entries.foldlM step state = .ok last := by
  induction entries generalizing state with
  | nil => exact ⟨state, rfl⟩
  | cons entry entries ih =>
    obtain ⟨next, hnext⟩ := accepted entry List.mem_cons_self state
    have later : ∀ entry ∈ entries, ∀ state, ∃ next, step state entry = .ok next := by
      intro entry member
      exact accepted entry (List.mem_cons_of_mem _ member)
    obtain ⟨last, hlast⟩ := ih later next
    exact ⟨last, by rw [List.foldlM_cons, hnext]; exact hlast⟩

/-- A run whose results are all right, and that comes to its end where something is right, has the
right result, if that is only one. -/
theorem foldlM_eq_ok_iff {σ ε : Type} {step : σ → Key × Item → Except ε σ} {entries : Entries}
    {state last : σ} {right : σ → Prop}
    (sound : ∀ {last}, entries.foldlM step state = .ok last → right last)
    (accepted : ∀ {last}, right last →
      ∀ entry ∈ entries, ∀ state, ∃ next, step state entry = .ok next)
    (unique : ∀ {one other}, right one → right other → one = other) :
    entries.foldlM step state = .ok last ↔ right last := by
  refine ⟨sound, fun hlast => ?_⟩
  obtain ⟨found, hfound⟩ := foldlM_ok (accepted hlast) state
  rw [hfound, unique (sound hfound) hlast]

/-- What decides a field can be read from the entry of its name. -/
theorem Decodes.of_mem {α : Type} {holds : Item → α → Prop} {builtIn value : α} {name : String}
    {entries : Entries} (decodes : Decodes holds builtIn (entries.find? name) value)
    (distinct : entries.Distinct) {entry : Key × Item} (member : entry ∈ entries)
    (named : entry.1.name = name) : holds entry.2 value := by
  rw [← named, distinct.find?_of_mem member] at decodes
  exact decodes

/-! ## Sections -/

/-- The items of a section, by the name of a field and its position. -/
abbrev Fields := String → Nat → Option Item

/-- The item of a field: by its name, or in its position. -/
def Shape.field? (shape : Shape) : Fields := fun name position =>
  match shape with
  | .named entries => entries.find? name
  | .ordered items => items[position]?

/-- The item of a field in what may be a section. -/
def fieldOf? (item? : Option Item) : Fields := fun name position =>
  (item?.bind Shape.ofItem?).bind fun shape => shape.field? name position

/-- What is there is a section. -/
def IsSection (item? : Option Item) : Prop := ∀ item ∈ item?, (Shape.ofItem? item).isSome

/-- An item is a section with the fields of something. -/
def HasFields {σ : Type} (holds : Fields → σ → Prop) (item : Item) (part : σ) : Prop :=
  ∃ shape, Shape.ofItem? item = some shape ∧ holds shape.field? part

/-- The fields of an item make at most one section, if any fields do. -/
theorem HasFields.unique {σ : Type} {holds : Fields → σ → Prop}
    (same : ∀ {fields one other}, holds fields one → holds fields other → one = other) (item : Item)
    (one other : σ) (h : HasFields holds item one) (h' : HasFields holds item other) :
    one = other := by
  obtain ⟨shape, hshape, hone⟩ := h
  obtain ⟨shape', hshape', hother⟩ := h'
  rw [hshape] at hshape'
  cases hshape'
  exact same hone hother

/-- What may be a section is one, if it is there, and has the fields of something; what is not
there has no fields. -/
theorem decodes_section_iff {σ : Type} {holds : Fields → σ → Prop} {builtIn part : σ}
    {item? : Option Item} (hbuiltIn : holds (fun _ _ => none) part ↔ part = builtIn) :
    Decodes (HasFields holds) builtIn item? part ↔
      IsSection item? ∧ holds (fieldOf? item?) part := by
  cases item? with
  | none =>
    show part = builtIn ↔ _ ∧ holds (fun _ _ => none) part
    rw [hbuiltIn]
    exact (and_iff_right (by simp [IsSection])).symm
  | some item =>
    show HasFields holds item part ↔ _
    cases hshape : Shape.ofItem? item with
    | none => simp [HasFields, IsSection, hshape]
    | some shape =>
      have fields : fieldOf? (some item) = shape.field? := by
        funext name position
        simp [fieldOf?, hshape]
      simp [HasFields, IsSection, fields, hshape]

/-- The table of an item without double keys has no double keys. -/
theorem Shape.distinct_of_named {item : Item} (distinct : item.Distinct) {entries : Entries}
    (h : Shape.ofItem? item = some (.named entries)) : entries.Distinct := by
  cases item with
  | table form inner extent =>
    cases h
    exact Item.distinct_table.mp distinct
  | moment extent =>
    cases h
    exact .nil
  | _ => cases h

/-- What decodes an item by its shape accepts the items with the right fields. -/
theorem ofShape_eq_ok_iff {σ : Type} {holds : Fields → σ → Prop}
    {named : Entries → Except Mismatch σ} {ordered : List Item → Except Mismatch σ}
    {complaint : Mismatch} {item : Item} {part : σ} (distinct : item.Distinct)
    (hnamed : ∀ entries : Entries, entries.Distinct →
      (named entries = .ok part ↔ holds (Shape.named entries).field? part))
    (hordered : ∀ items, ordered items = .ok part ↔ holds (Shape.ordered items).field? part) :
    (match Shape.ofItem? item with
      | none => Except.error complaint
      | some (.named entries) => named entries
      | some (.ordered items) => ordered items) = .ok part ↔ HasFields holds item part := by
  unfold HasFields
  cases hshape : Shape.ofItem? item with
  | none => simp
  | some shape =>
    simp only [Option.some.injEq, exists_eq_left']
    cases shape with
    | named entries => exact hnamed entries (Shape.distinct_of_named distinct hshape)
    | ordered items => exact hordered items

namespace TelnetSection

/-- A section has some fields. -/
structure Is (fields : Fields) (telnet : TelnetSection) : Prop where
  listen : Decodes IsText builtIn.listen (fields "listen" 0) telnet.listen

/-- An entry of a telnet section is taken for the address if it has that name, and passed over
otherwise. -/
theorem take_eq_ok_iff {current next : TelnetSection} {entry : Key × Item} :
    take current entry = .ok next ↔
      if entry.1.name = "listen" then
        ∃ listen, IsText entry.2 listen ∧ { current with listen } = next
      else current = next := by
  unfold take
  split
  · simp only [bind_eq_ok_iff, decodeText_eq_ok_iff, pure, Except.pure, Except.ok.injEq]
  · simp only [pure, Except.pure, Except.ok.injEq]

/-- The entry named listen settles the address of a telnet section. -/
theorem take_listen : Settles take "listen" IsText TelnetSection.listen where
  own := by grind [take_eq_ok_iff]
  other := by grind [take_eq_ok_iff]

/-- Fields make at most one telnet section. -/
theorem Is.unique {fields : Fields} {one other : TelnetSection} (h : Is fields one)
    (h' : Is fields other) : one = other := by
  have hlisten := h.listen.unique h'.listen IsText.unique
  cases one
  cases other
  congr

/-- No fields make the built-in telnet section. -/
theorem is_none_iff {telnet : TelnetSection} : Is (fun _ _ => none) telnet ↔ telnet = builtIn := by
  constructor
  · intro h
    exact h.unique ⟨rfl⟩
  · rintro rfl
    exact ⟨rfl⟩

/-- Taking the entries of a table comes to the telnet section that its fields make. -/
theorem foldlM_eq_ok_iff {entries : Entries} (distinct : entries.Distinct)
    {telnet : TelnetSection} :
    entries.foldlM take builtIn = .ok telnet ↔ Is (Shape.named entries).field? telnet := by
  apply Settings.foldlM_eq_ok_iff
  · intro last h
    exact ⟨take_listen.run distinct h⟩
  · intro last h entry member state
    simp only [take_eq_ok_iff]
    split
    · next named => exact ⟨_, _, h.listen.of_mem distinct member named, rfl⟩
    · exact ⟨_, rfl⟩
  · exact Is.unique

/-- An item is decoded to the telnet section that its fields make. -/
theorem decode_eq_ok_iff {place : Extent} {item : Item} (distinct : item.Distinct)
    {telnet : TelnetSection} : decode place item = .ok telnet ↔ HasFields Is item telnet := by
  apply ofShape_eq_ok_iff distinct
  · intro entries hentries
    exact foldlM_eq_ok_iff hentries
  · intro items
    simp only [bind_eq_ok_iff, decodeAt_text_eq_ok_iff, pure, Except.pure, Except.ok.injEq]
    constructor
    · rintro ⟨listen, hlisten, rfl⟩
      exact ⟨hlisten⟩
    · rintro ⟨hlisten⟩
      exact ⟨_, hlisten, rfl⟩

end TelnetSection

namespace LoggingSection

/-- A section has some fields. -/
structure Is (fields : Fields) (logging : LoggingSection) : Prop where
  level : Decodes IsText builtIn.level (fields "level" 0) logging.level

/-- An entry of a logging section is taken for the level if it has that name, and passed over
otherwise. -/
theorem take_eq_ok_iff {current next : LoggingSection} {entry : Key × Item} :
    take current entry = .ok next ↔
      if entry.1.name = "level" then
        ∃ level, IsText entry.2 level ∧ { current with level } = next
      else current = next := by
  unfold take
  split
  · simp only [bind_eq_ok_iff, decodeText_eq_ok_iff, pure, Except.pure, Except.ok.injEq]
  · simp only [pure, Except.pure, Except.ok.injEq]

/-- The entry named level settles the level of a logging section. -/
theorem take_level : Settles take "level" IsText LoggingSection.level where
  own := by grind [take_eq_ok_iff]
  other := by grind [take_eq_ok_iff]

/-- Fields make at most one logging section. -/
theorem Is.unique {fields : Fields} {one other : LoggingSection} (h : Is fields one)
    (h' : Is fields other) : one = other := by
  have hlevel := h.level.unique h'.level IsText.unique
  cases one
  cases other
  congr

/-- No fields make the built-in logging section. -/
theorem is_none_iff {logging : LoggingSection} :
    Is (fun _ _ => none) logging ↔ logging = builtIn := by
  constructor
  · intro h
    exact h.unique ⟨rfl⟩
  · rintro rfl
    exact ⟨rfl⟩

/-- Taking the entries of a table comes to the logging section that its fields make. -/
theorem foldlM_eq_ok_iff {entries : Entries} (distinct : entries.Distinct)
    {logging : LoggingSection} :
    entries.foldlM take builtIn = .ok logging ↔ Is (Shape.named entries).field? logging := by
  apply Settings.foldlM_eq_ok_iff
  · intro last h
    exact ⟨take_level.run distinct h⟩
  · intro last h entry member state
    simp only [take_eq_ok_iff]
    split
    · next named => exact ⟨_, _, h.level.of_mem distinct member named, rfl⟩
    · exact ⟨_, rfl⟩
  · exact Is.unique

/-- An item is decoded to the logging section that its fields make. -/
theorem decode_eq_ok_iff {place : Extent} {item : Item} (distinct : item.Distinct)
    {logging : LoggingSection} : decode place item = .ok logging ↔ HasFields Is item logging := by
  apply ofShape_eq_ok_iff distinct
  · intro entries hentries
    exact foldlM_eq_ok_iff hentries
  · intro items
    simp only [bind_eq_ok_iff, decodeAt_text_eq_ok_iff, pure, Except.pure, Except.ok.injEq]
    constructor
    · rintro ⟨level, hlevel, rfl⟩
      exact ⟨hlevel⟩
    · rintro ⟨hlevel⟩
      exact ⟨_, hlevel, rfl⟩

end LoggingSection

namespace SshSection

/-- A section has some fields. -/
structure Is (fields : Fields) (ssh : SshSection) : Prop where
  listen : Decodes IsText builtIn.listen (fields "listen" 0) ssh.listen
  username : Decodes IsText builtIn.username (fields "username" 1) ssh.username
  password : Decodes IsText builtIn.password (fields "password" 2) ssh.password
  channelOpenTimeout : Decodes IsSeconds builtIn.channelOpenTimeout
    (fields "channel_open_timeout" 3) ssh.channelOpenTimeout

/-- An entry of an SSH section is taken for the field of its name, and passed over if there is none.
-/
theorem take_eq_ok_iff {current next : SshSection} {entry : Key × Item} :
    take current entry = .ok next ↔
      if entry.1.name = "listen" then
        ∃ listen, IsText entry.2 listen ∧ { current with listen } = next
      else if entry.1.name = "username" then
        ∃ username, IsText entry.2 username ∧ { current with username } = next
      else if entry.1.name = "password" then
        ∃ password, IsText entry.2 password ∧ { current with password } = next
      else if entry.1.name = "channel_open_timeout" then
        ∃ channelOpenTimeout, IsSeconds entry.2 channelOpenTimeout ∧
          { current with channelOpenTimeout } = next
      else current = next := by
  unfold take
  repeat' split
  all_goals
    simp only [bind_eq_ok_iff, decodeText_eq_ok_iff, decodeSeconds_eq_ok_iff, pure, Except.pure,
      Except.ok.injEq]

/-- The entry named listen settles the address of an SSH section. -/
theorem take_listen : Settles take "listen" IsText SshSection.listen where
  own := by grind [take_eq_ok_iff]
  other := by grind [take_eq_ok_iff]

/-- The entry named username settles the user name of an SSH section. -/
theorem take_username : Settles take "username" IsText SshSection.username where
  own := by grind [take_eq_ok_iff]
  other := by grind [take_eq_ok_iff]

/-- The entry named password settles the password of an SSH section. -/
theorem take_password : Settles take "password" IsText SshSection.password where
  own := by grind [take_eq_ok_iff]
  other := by grind [take_eq_ok_iff]

/-- The entry named channel_open_timeout settles the wait of an SSH section. -/
theorem take_channelOpenTimeout :
    Settles take "channel_open_timeout" IsSeconds SshSection.channelOpenTimeout where
  own := by grind [take_eq_ok_iff]
  other := by grind [take_eq_ok_iff]

/-- Fields make at most one SSH section. -/
theorem Is.unique {fields : Fields} {one other : SshSection} (h : Is fields one)
    (h' : Is fields other) : one = other := by
  have hlisten := h.listen.unique h'.listen IsText.unique
  have husername := h.username.unique h'.username IsText.unique
  have hpassword := h.password.unique h'.password IsText.unique
  have htimeout := h.channelOpenTimeout.unique h'.channelOpenTimeout IsSeconds.unique
  cases one
  cases other
  congr

/-- No fields make the built-in SSH section. -/
theorem is_none_iff {ssh : SshSection} : Is (fun _ _ => none) ssh ↔ ssh = builtIn := by
  constructor
  · intro h
    exact h.unique ⟨rfl, rfl, rfl, rfl⟩
  · rintro rfl
    exact ⟨rfl, rfl, rfl, rfl⟩

/-- Taking the entries of a table comes to the SSH section that its fields make. -/
theorem foldlM_eq_ok_iff {entries : Entries} (distinct : entries.Distinct) {ssh : SshSection} :
    entries.foldlM take builtIn = .ok ssh ↔ Is (Shape.named entries).field? ssh := by
  apply Settings.foldlM_eq_ok_iff
  · intro last h
    exact ⟨take_listen.run distinct h, take_username.run distinct h, take_password.run distinct h,
      take_channelOpenTimeout.run distinct h⟩
  · intro last h entry member state
    simp only [take_eq_ok_iff]
    split
    · next named => exact ⟨_, _, h.listen.of_mem distinct member named, rfl⟩
    · split
      · next named => exact ⟨_, _, h.username.of_mem distinct member named, rfl⟩
      · split
        · next named => exact ⟨_, _, h.password.of_mem distinct member named, rfl⟩
        · split
          · next named => exact ⟨_, _, h.channelOpenTimeout.of_mem distinct member named, rfl⟩
          · exact ⟨_, rfl⟩
  · exact Is.unique

/-- An item is decoded to the SSH section that its fields make. -/
theorem decode_eq_ok_iff {place : Extent} {item : Item} (distinct : item.Distinct)
    {ssh : SshSection} : decode place item = .ok ssh ↔ HasFields Is item ssh := by
  apply ofShape_eq_ok_iff distinct
  · intro entries hentries
    exact foldlM_eq_ok_iff hentries
  · intro items
    simp only [bind_eq_ok_iff, decodeAt_text_eq_ok_iff, decodeAt_seconds_eq_ok_iff, pure,
      Except.pure, Except.ok.injEq]
    constructor
    · rintro ⟨listen, hlisten, username, husername, password, hpassword, timeout, htimeout, rfl⟩
      exact ⟨hlisten, husername, hpassword, htimeout⟩
    · rintro ⟨hlisten, husername, hpassword, htimeout⟩
      exact ⟨_, hlisten, _, husername, _, hpassword, _, htimeout, rfl⟩

end SshSection

/-! ## Files -/

namespace File

/-- A file has the contents of a document. -/
structure Is (entries : Entries) (file : File) : Prop where
  telnet : Decodes (HasFields TelnetSection.Is) .builtIn (entries.find? "telnet") file.telnet
  ssh : Decodes (HasFields SshSection.Is) .builtIn (entries.find? "ssh") file.ssh
  logging : Decodes (HasFields LoggingSection.Is) .builtIn (entries.find? "logging") file.logging

/-- An entry of a document is taken for the section of its name, and passed over if there is none.
-/
theorem take_eq_ok_iff {current next : File} {entry : Key × Item} (distinct : entry.2.Distinct) :
    take current entry = .ok next ↔
      if entry.1.name = "telnet" then
        ∃ telnet, HasFields TelnetSection.Is entry.2 telnet ∧ { current with telnet } = next
      else if entry.1.name = "ssh" then
        ∃ ssh, HasFields SshSection.Is entry.2 ssh ∧ { current with ssh } = next
      else if entry.1.name = "logging" then
        ∃ logging, HasFields LoggingSection.Is entry.2 logging ∧ { current with logging } = next
      else current = next := by
  unfold take
  repeat' split
  all_goals
    simp only [bind_eq_ok_iff, TelnetSection.decode_eq_ok_iff distinct,
      SshSection.decode_eq_ok_iff distinct, LoggingSection.decode_eq_ok_iff distinct, pure,
      Except.pure, Except.ok.injEq]

/-- The entry named telnet settles the telnet section of a file. -/
theorem take_telnet : Settles take "telnet" (HasFields TelnetSection.Is) File.telnet where
  own := by grind [take_eq_ok_iff]
  other := by grind [take_eq_ok_iff]

/-- The entry named ssh settles the SSH section of a file. -/
theorem take_ssh : Settles take "ssh" (HasFields SshSection.Is) File.ssh where
  own := by grind [take_eq_ok_iff]
  other := by grind [take_eq_ok_iff]

/-- The entry named logging settles the logging section of a file. -/
theorem take_logging : Settles take "logging" (HasFields LoggingSection.Is) File.logging where
  own := by grind [take_eq_ok_iff]
  other := by grind [take_eq_ok_iff]

/-- A document makes at most one file. -/
theorem Is.unique {entries : Entries} {one other : File} (h : Is entries one)
    (h' : Is entries other) : one = other := by
  have htelnet := h.telnet.unique h'.telnet (HasFields.unique TelnetSection.Is.unique)
  have hssh := h.ssh.unique h'.ssh (HasFields.unique SshSection.Is.unique)
  have hlogging := h.logging.unique h'.logging (HasFields.unique LoggingSection.Is.unique)
  cases one
  cases other
  congr

/-- A document is accepted where every field that is there is of its kind, and its file then has
the contents of the document. -/
theorem ofEntries_eq_ok_iff {entries : Entries} (distinct : entries.Distinct) {file : File} :
    ofEntries entries = .ok file ↔ Is entries file := by
  apply foldlM_eq_ok_iff
  · intro last h
    exact ⟨take_telnet.run distinct h, take_ssh.run distinct h, take_logging.run distinct h⟩
  · intro last h entry member state
    simp only [take_eq_ok_iff (distinct.each entry member)]
    split
    · next named => exact ⟨_, _, h.telnet.of_mem distinct member named, rfl⟩
    · split
      · next named => exact ⟨_, _, h.ssh.of_mem distinct member named, rfl⟩
      · split
        · next named => exact ⟨_, _, h.logging.of_mem distinct member named, rfl⟩
        · exact ⟨_, rfl⟩
  · exact Is.unique

end File

/-! ## Choices -/

/-- A document makes a choice: what is there as a section is one, and a setting is chosen where
its field is there, with the value that the field has. -/
structure Choice.Of (entries : Entries) (choice : Choice) : Prop where
  telnet : IsSection (entries.find? "telnet")
  ssh : IsSection (entries.find? "ssh")
  logging : IsSection (entries.find? "logging")
  telnetListen : Option.Rel IsText (fieldOf? (entries.find? "telnet") "listen" 0)
    choice.telnetListen
  sshListen : Option.Rel IsText (fieldOf? (entries.find? "ssh") "listen" 0) choice.sshListen
  username : Option.Rel IsText (fieldOf? (entries.find? "ssh") "username" 1) choice.username
  password : Option.Rel IsText (fieldOf? (entries.find? "ssh") "password" 2) choice.password
  channelOpenTimeout : Option.Rel IsSeconds
    (fieldOf? (entries.find? "ssh") "channel_open_timeout" 3) choice.channelOpenTimeout
  level : Option.Rel IsText (fieldOf? (entries.find? "logging") "level" 0) choice.level

/-- An item that may be missing says a value exactly if the value is what it says, or the built-in
one in its place. -/
theorem decodes_iff_rel {α : Type} {holds : Item → α → Prop} {builtIn value : α}
    {item? : Option Item} :
    Decodes holds builtIn item? value ↔
      ∃ value?, Option.Rel holds item? value? ∧ value?.getD builtIn = value := by
  cases item? with
  | none =>
    constructor
    · intro h
      exact ⟨none, .none, h.symm⟩
    · rintro ⟨_, ⟨⟩, rfl⟩
      rfl
  | some item =>
    constructor
    · intro h
      exact ⟨some value, .some h, rfl⟩
    · rintro ⟨_, ⟨h⟩, rfl⟩
      exact h

/-- A document is accepted where it makes a choice, and its file is that choice laid over the
built-in settings. -/
theorem File.ofEntries_eq_ok_iff_choice {entries : Entries} (distinct : entries.Distinct)
    {file : File} :
    ofEntries entries = .ok file ↔
      ∃ choice, Choice.Of entries choice ∧ choice.laidOver builtIn = file := by
  rw [ofEntries_eq_ok_iff distinct]
  constructor
  · rintro ⟨telnet, ssh, logging⟩
    obtain ⟨telnet, ⟨hlisten⟩⟩ := (decodes_section_iff TelnetSection.is_none_iff).mp telnet
    obtain ⟨ssh, ⟨hsshListen, husername, hpassword, htimeout⟩⟩ :=
      (decodes_section_iff SshSection.is_none_iff).mp ssh
    obtain ⟨logging, ⟨hlevel⟩⟩ := (decodes_section_iff LoggingSection.is_none_iff).mp logging
    obtain ⟨telnetListen, htelnetListen, listen⟩ := decodes_iff_rel.mp hlisten
    obtain ⟨sshListen, hsshListen, listen'⟩ := decodes_iff_rel.mp hsshListen
    obtain ⟨username?, husername, username⟩ := decodes_iff_rel.mp husername
    obtain ⟨password?, hpassword, password⟩ := decodes_iff_rel.mp hpassword
    obtain ⟨timeout?, htimeout, timeout⟩ := decodes_iff_rel.mp htimeout
    obtain ⟨level?, hlevel, level⟩ := decodes_iff_rel.mp hlevel
    refine ⟨⟨telnetListen, sshListen, username?, password?, timeout?, level?⟩,
      ⟨telnet, ssh, logging, htelnetListen, hsshListen, husername, hpassword, htimeout, hlevel⟩, ?_⟩
    obtain ⟨⟨_⟩, ⟨_, _, _, _⟩, ⟨_⟩⟩ := file
    cases listen
    cases listen'
    cases username
    cases password
    cases timeout
    cases level
    rfl
  · rintro ⟨choice, h, rfl⟩
    constructor
    · apply (decodes_section_iff TelnetSection.is_none_iff).mpr
      exact ⟨h.telnet, ⟨decodes_iff_rel.mpr ⟨_, h.telnetListen, rfl⟩⟩⟩
    · apply (decodes_section_iff SshSection.is_none_iff).mpr
      exact ⟨h.ssh, ⟨decodes_iff_rel.mpr ⟨_, h.sshListen, rfl⟩,
        decodes_iff_rel.mpr ⟨_, h.username, rfl⟩, decodes_iff_rel.mpr ⟨_, h.password, rfl⟩,
        decodes_iff_rel.mpr ⟨_, h.channelOpenTimeout, rfl⟩⟩⟩
    · apply (decodes_section_iff LoggingSection.is_none_iff).mpr
      exact ⟨h.logging, ⟨decodes_iff_rel.mpr ⟨_, h.level, rfl⟩⟩⟩

/-- The text of a document is accepted as what a choice that the document makes comes to. -/
theorem File.parse_eq_ok_iff {text : List Char} {document : Document}
    (h : Document.parse? text = some document) {file : File} :
    File.parse text = .ok file ↔
      ∃ choice, Choice.Of document.entries choice ∧ choice.laidOver .builtIn = file := by
  rw [← File.ofEntries_eq_ok_iff_choice (Document.entries_distinct h)]
  unfold File.parse
  cases hfile : File.ofEntries document.entries <;> simp [h, hfile]

end PongFixture.Settings
