import PongFixture.Proofs.Startup.Course

/-!
# Which log lines a program prints

The filter of a program's log comes from the first of three places that has one: the environment, the
command line, the settings file; or else it is that of the built-in level. A filter that the
environment asks for in a well-formed text, also in an empty one, decides alone. What is no text, or
is refused, is passed over as if nothing were asked for.

Two starts that differ in the level alone report the same events. So what they print differs by their
filters, and of two plain levels the less verbose one prints some of the lines of the other, in the
same order.
-/

set_option autoImplicit false

namespace PongFixture.Log

/-! ## Plain levels -/

/-- A text without commas is one piece. -/
theorem pieces_of_forall_ne {text : List Char} (h : ∀ c ∈ text, c ≠ ',') : pieces text = [text] := by
  induction text with
  | nil => rfl
  | cons c text ih =>
    obtain ⟨hc, htext⟩ := List.forall_mem_cons.mp h
    simp [pieces, hc, ih htext]

/-- The letters and digits lie in three ranges. -/
theorem toNat_of_isAlphanum {c : Char} (h : c.isAlphanum = true) :
    48 ≤ c.toNat ∧ c.toNat ≤ 57 ∨ 65 ≤ c.toNat ∧ c.toNat ≤ 90 ∨ 97 ≤ c.toNat ∧ c.toNat ≤ 122 := by
  simp only [Char.isAlphanum, Char.isAlpha, Char.isUpper, Char.isLower, Char.isDigit,
    Bool.or_eq_true, Bool.and_eq_true, decide_eq_true_eq, ge_iff_le, UInt32.le_iff_toNat_le] at h
  exact (h.elim (fun h => h.elim (fun h => .inr (.inl h)) (fun h => .inr (.inr h))) .inl)

/-- No letter or digit is blank. -/
theorem isBlank_of_isAlphanum {c : Char} (h : c.isAlphanum = true) : Blank.isBlank c = false := by
  have hcode := toNat_of_isAlphanum h
  simp only [Blank.isBlank, Blank.ranges, List.any_cons, List.any_nil, Bool.or_eq_false_iff,
    Bool.and_eq_false_iff, decide_eq_false_iff_not, Bool.or_false]
  omega

/-- A word of letters and digits has no blanks around it. -/
theorem trim_of_isAlphanum {text : List Char} (h : ∀ c ∈ text, c.isAlphanum = true) :
    Blank.trim text = text := by
  have hkept : ∀ kept : List Char, (∀ c ∈ kept, c.isAlphanum = true) →
      kept.dropWhile Blank.isBlank = kept := by
    intro kept hall
    cases kept with
    | nil => rfl
    | cons c kept =>
      rw [List.dropWhile_cons_of_neg (by simp [isBlank_of_isAlphanum (hall c (by simp))])]
  unfold Blank.trim
  rw [hkept text h, hkept text.reverse (by simpa using h), List.reverse_reverse]

namespace Directive

/-- A word of letters and digits is a directive of a single word. -/
theorem parse_of_isAlphanum {text : List Char} (htext : text ≠ [])
    (h : ∀ c ∈ text, c.isAlphanum = true) : parse text = .ok (ofWord text) := by
  obtain ⟨c, rest, rfl⟩ := List.exists_cons_of_ne_nil htext
  have hinside : ∀ d ∈ c :: rest, (d != '=' && d != '[') = true := by
    intro d hd
    have hletter := h d hd
    simp only [Bool.and_eq_true, bne_iff_ne]
    constructor <;> (rintro rfl; exact absurd hletter (by decide))
  have hopening : c ≠ '[' := by
    have hfirst := hinside c (by simp)
    simp at hfirst
    exact hfirst.2
  have hstart : isWordStart c = true := by simp [isWordStart, h c (by simp)]
  unfold parse
  simp only [trim_of_isAlphanum h, hstart, if_true, List.dropWhile_eq_nil_iff.mpr hinside]

end Directive

/-- A text that is a plain level: a word of letters and digits that tells a limit. -/
structure PlainLevel (text : List Char) (limit : Limit) : Prop where
  word : ∀ c ∈ text, c.isAlphanum = true
  tells : Limit.parse? text = some limit

/-- The name of every limit is a plain level. -/
theorem plainLevel_name (limit : Limit) : PlainLevel limit.name.toList limit := by
  refine ⟨?_, parse?_name limit⟩
  cases limit with
  | off => simp [Limit.name, Char.isAlphanum, Char.isAlpha, Char.isLower]
  | upTo level =>
    cases level <;> simp [Limit.name, Char.isAlphanum, Char.isAlpha, Char.isLower]

section PlainLevel

variable {text : List Char} {limit : Limit}

/-- A plain level is not empty. -/
theorem PlainLevel.ne_nil (h : PlainLevel text limit) : text ≠ [] := by
  rintro rfl
  have hnone : Limit.parse? [] = none := by decide +kernel
  rw [h.tells] at hnone
  cases hnone

/-- A plain level is one piece, since it has no comma in it. -/
theorem PlainLevel.pieces_eq (h : PlainLevel text limit) : pieces text = [text] := by
  apply pieces_of_forall_ne
  rintro c hc rfl
  exact absurd (h.word _ hc) (by decide)

/-- A plain level is read as a directive with its limit for everything. -/
theorem PlainLevel.parse_eq (h : PlainLevel text limit) :
    Directive.parse text = .ok ⟨none, none, [], limit⟩ := by
  rw [Directive.parse_of_isAlphanum h.ne_nil h.word]
  simp [Directive.ofWord, h.tells]

/-- A single directive with a limit for everything makes the filter of that limit. -/
theorem Filter.ofDirectives_limit (limit : Limit) :
    ofDirectives [⟨none, none, [], limit⟩] = upTo limit := by
  simp [ofDirectives, Directive.rule?, upTo]

/-- A plain level that is configured lets everything up to it through. -/
theorem PlainLevel.ofLevel_eq (h : PlainLevel text limit) : Filter.ofLevel text = .upTo limit := by
  unfold Filter.ofLevel parseValid
  simp [h.pieces_eq, h.parse_eq, Except.toOption, Filter.ofDirectives_limit]

/-- A plain level that the environment asks for lets everything up to it through. -/
theorem PlainLevel.parseAll_eq (h : PlainLevel text limit) :
    parseAll text = .ok [⟨none, none, [], limit⟩] := by
  unfold parseAll
  rw [if_neg h.ne_nil, h.pieces_eq, List.mapM_cons, h.parse_eq]
  rfl

end PlainLevel

/-- A limit prints the lines of the events up to it. -/
theorem lines_upTo (limit : Limit) (events : List Event) :
    lines (.upTo limit) events =
      (events.filter fun event => event.level.verbosity ≤ limit.verbosity).map Event.line := by
  apply congrArg (List.map Event.line)
  apply List.filter_congr
  intro event _
  rw [Filter.admits_upTo, Limit.admits]

/-- Of two limits the less verbose one prints some of the lines of the other. -/
theorem lines_upTo_sublist {fewer more : Limit} (h : fewer.verbosity ≤ more.verbosity)
    (events : List Event) :
    (lines (.upTo fewer) events).Sublist (lines (.upTo more) events) := by
  rw [lines_upTo, lines_upTo]
  apply List.Sublist.map
  apply List.monotone_filter_right
  intro event hadmits
  rw [decide_eq_true_eq] at hadmits ⊢
  exact hadmits.trans h

/-! ## What the environment asks for -/

/-- An environment that asks for a filter, in a text that is well-formed. -/
inductive Heeded : Option Bytes → Filter → Prop
  | asked {bytes : Bytes} {text : List Char} {directives : List Directive}
      (isText : Utf8.decode? bytes = some text) (accepted : parseAll text = .ok directives) :
      Heeded (some bytes) (.ofDirectives directives)

/-- An environment that asks for no filter, or for none that can be understood. -/
inductive Unheeded : Option Bytes → Prop
  | unset : Unheeded none
  | notText {bytes : Bytes} (isNoText : Utf8.decode? bytes = none) : Unheeded (some bytes)
  | refused {bytes : Bytes} {text : List Char} {error : DirectiveError}
      (isText : Utf8.decode? bytes = some text) (refused : parseAll text = .error error) :
      Unheeded (some bytes)

/-- Every environment asks for a filter or is passed over. -/
theorem heeded_or_unheeded (environment : Option Bytes) :
    (∃ filter, Heeded environment filter) ∨ Unheeded environment := by
  cases environment with
  | none => exact .inr .unset
  | some bytes =>
    cases hdecode : Utf8.decode? bytes with
    | none => exact .inr (.notText hdecode)
    | some text =>
      cases hparse : parseAll text with
      | error error => exact .inr (.refused hdecode hparse)
      | ok directives => exact .inl ⟨_, .asked hdecode hparse⟩

/-- An environment that asks for a filter gets it. -/
theorem Heeded.ofEnvironment?_eq {environment : Option Bytes} {filter : Filter}
    (h : Heeded environment filter) : Filter.ofEnvironment? environment = some filter := by
  cases h with
  | asked isText accepted =>
    simp [Filter.ofEnvironment?, isText, Filter.parse?, accepted, Except.toOption]

/-- An environment that is passed over gives no filter. -/
theorem Unheeded.ofEnvironment?_eq {environment : Option Bytes} (h : Unheeded environment) :
    Filter.ofEnvironment? environment = none := by
  cases h with
  | unset => rfl
  | notText isNoText => simp [Filter.ofEnvironment?, isNoText]
  | refused isText refused =>
    simp [Filter.ofEnvironment?, isText, Filter.parse?, refused, Except.toOption]

/-- Where the environment decides, nothing is said of the configured level. -/
theorem Heeded.grumbles_eq {environment : Option Bytes} {filter : Filter}
    (h : Heeded environment filter) (level : String) : Filter.grumbles environment level = [] := by
  simp [Filter.grumbles, h.ofEnvironment?_eq]

/-- Where the environment is passed over, what is wrong with the configured level is said. -/
theorem Unheeded.grumbles_eq {environment : Option Bytes} (h : Unheeded environment)
    (level : String) : Filter.grumbles environment level = complaints level.toList := by
  simp [Filter.grumbles, h.ofEnvironment?_eq]

/-- The plain level that is in force: the one that the environment asks for, or else the configured
one. -/
inductive InForce : Option Bytes → String → Limit → Prop
  | asked {bytes : Bytes} {text : List Char} {level : String} {limit : Limit}
      (isText : Utf8.decode? bytes = some text) (plain : PlainLevel text limit) :
      InForce (some bytes) level limit
  | configured {environment : Option Bytes} {level : String} {limit : Limit}
      (unheeded : Unheeded environment) (plain : PlainLevel level.toList limit) :
      InForce environment level limit

/-- The filter that is chosen lets everything up to the level in force through. -/
theorem InForce.choose_eq {environment : Option Bytes} {level : String} {limit : Limit}
    (h : InForce environment level limit) : Filter.choose environment level = .upTo limit := by
  cases h with
  | asked isText plain =>
    have hheeded := Heeded.asked isText plain.parseAll_eq
    rw [Filter.choose_of_environment hheeded.ofEnvironment?_eq, Filter.ofDirectives_limit]
  | configured unheeded plain =>
    rw [Filter.choose_of_level unheeded.ofEnvironment?_eq, plain.ofLevel_eq]

end PongFixture.Log

namespace PongFixture.Startup

open Settings Log

/-! ## What is printed over a run -/

/-- What a program reports, at its start and of whatever it serves later, if it gets to have
settings. -/
def reported (surroundings : Surroundings) (arguments : List Bytes) (later : List Event) :
    List Event :=
  match configure surroundings arguments with
  | .error _ => []
  | .ok settings => (launch surroundings settings).events ++ later

/-- The lines that a program prints of it. -/
def printed (surroundings : Surroundings) (environment : Option Bytes) (arguments : List Bytes)
    (later : List Event) : List String :=
  match configure surroundings arguments with
  | .error _ => []
  | .ok settings =>
    Log.lines (Log.Filter.choose environment settings.logLevel)
      (reported surroundings arguments later)

/-- The options that a command line gives, and what its settings file says. -/
structure Told (surroundings : Surroundings) (arguments : List Bytes) (options : Options)
    (given : Choice) : Prop where
  line : Options.parse arguments = .ok options
  file : Given surroundings.files options.config given

/-- Two starts that differ in nothing but the level of the log, wherever it is given. Their files may
stand at different paths. -/
structure LevelApart (surroundings others : Surroundings) (options otherOptions : Options)
    (given other : Choice) : Prop where
  bind : others.bind = surroundings.bind
  hostKey : others.hostKey = surroundings.hostKey
  options : { otherOptions with config := none, logLevel := none } =
    { options with config := none, logLevel := none }
  given : { other with level := none } = { given with level := none }

section Start

variable {surroundings others : Surroundings} {environment : Option Bytes}
  {arguments otherArguments : List Bytes} {options otherOptions : Options} {given other : Choice}
  {settings : Settings}

/-- Settings are the options of the command line, laid over what the file says, laid over the
built-in values. -/
theorem Told.configure_eq (h : Told surroundings arguments options given) :
    configure surroundings arguments =
      (merge options (given.laidOver .builtIn)).mapError Failure.settings := by
  rw [configure_of_parse surroundings arguments h.line, load_of_given h.file]

/-- The level of the log in the settings is the first one that the options, the file or the built-in
values give. -/
theorem Told.logLevel_eq (h : Told surroundings arguments options given)
    (hconfigure : configure surroundings arguments = .ok settings) :
    settings.logLevel = levelText options given := by
  rw [h.configure_eq] at hconfigure
  cases hmerge : merge options (given.laidOver .builtIn) with
  | error error => simp [hmerge, Except.mapError] at hconfigure
  | ok merged =>
    simp only [hmerge, Except.mapError, Except.ok.injEq] at hconfigure
    rw [← hconfigure]
    exact (merge_eq_ok_iff.mp hmerge).logLevel

/-- The settings of two starts that differ in the level of the log differ in it alone. -/
theorem LevelApart.merge_eq
    (h : LevelApart surroundings others options otherOptions given other) :
    merge otherOptions (other.laidOver .builtIn) =
      (merge options (given.laidOver .builtIn)).map fun settings =>
        { settings with logLevel := levelText otherOptions other } := by
  have hlevel := levelText_eq otherOptions other
  obtain ⟨hprotocol, htelnet, hssh⟩ : otherOptions.protocol = options.protocol ∧
      otherOptions.telnetListen = options.telnetListen ∧
      otherOptions.sshListen = options.sshListen := by
    simpa using h.options
  obtain ⟨hfileTelnet, hfileSsh, husername, hpassword, htimeout⟩ :
      other.telnetListen = given.telnetListen ∧ other.sshListen = given.sshListen ∧
      other.username = given.username ∧ other.password = given.password ∧
      other.channelOpenTimeout = given.channelOpenTimeout := by
    simpa using h.given
  unfold merge
  rw [hlevel]
  simp only [Choice.laidOver, hprotocol, htelnet, hssh, hfileTelnet, hfileSsh, husername, hpassword,
    htimeout]
  cases parseAddress (options.telnetListen.getD (given.telnetListen.getD _)) with
  | error error => rfl
  | ok telnet =>
    cases parseAddress (options.sshListen.getD (given.sshListen.getD _)) <;> rfl

/-- Two starts that differ in the level of the log fail alike, or launch alike. -/
theorem LevelApart.configure_eq
    (h : LevelApart surroundings others options otherOptions given other)
    (htold : Told surroundings arguments options given)
    (hother : Told others otherArguments otherOptions other) :
    configure others otherArguments =
      (configure surroundings arguments).map fun settings =>
        { settings with logLevel := levelText otherOptions other } := by
  rw [htold.configure_eq, hother.configure_eq, h.merge_eq]
  cases merge options (given.laidOver .builtIn) <;> rfl

/-- The level of the log is nothing that a launch looks at, and neither are the files. -/
theorem launch_congr (hbind : others.bind = surroundings.bind)
    (hhostKey : others.hostKey = surroundings.hostKey) (settings : Settings) (level : String) :
    launch others { settings with logLevel := level } = launch surroundings settings := by
  unfold launch startTelnet startSsh listen context starting
  simp only [hbind, hhostKey]

/-- Starts that differ in the level of the log report the same. -/
theorem LevelApart.reported_eq
    (h : LevelApart surroundings others options otherOptions given other)
    (htold : Told surroundings arguments options given)
    (hother : Told others otherArguments otherOptions other) (later : List Event) :
    reported others otherArguments later = reported surroundings arguments later := by
  unfold reported
  rw [h.configure_eq htold hother]
  cases configure surroundings arguments with
  | error failure => rfl
  | ok settings =>
    show (launch others _).events ++ later = _
    rw [launch_congr h.bind h.hostKey]

/-- What is printed is decided by the environment and by the level that is configured. -/
theorem Told.printed_eq (h : Told surroundings arguments options given)
    (environment : Option Bytes) (later : List Event) :
    printed surroundings environment arguments later =
      Log.lines (Log.Filter.choose environment (levelText options given))
        (reported surroundings arguments later) := by
  unfold printed
  cases hconfigure : configure surroundings arguments with
  | error failure => simp [reported, hconfigure, Log.lines, Log.Filter.admitted]
  | ok settings =>
    show Log.lines (Log.Filter.choose environment settings.logLevel) _ = _
    rw [h.logLevel_eq hconfigure]

/-- The standard output of a start has the lines that are printed when nothing has been served yet. -/
theorem Told.output_console (h : Told surroundings arguments options given)
    (environment : Option Bytes) :
    (console surroundings environment arguments).output =
      unlines (printed surroundings environment arguments []) := by
  unfold console printed reported
  cases hconfigure : configure surroundings arguments with
  | ok settings => simp
  | error failure =>
    rw [h.configure_eq, mapError_eq_error_iff] at hconfigure
    obtain ⟨error, -, rfl⟩ := hconfigure
    rfl

/-- Two starts that differ in the level of the log write the same, where the same filter is chosen
for them and the same is said of their levels. -/
theorem LevelApart.console_eq
    (h : LevelApart surroundings others options otherOptions given other)
    (htold : Told surroundings arguments options given)
    (hother : Told others otherArguments otherOptions other) {otherEnvironment : Option Bytes}
    (hchoose : Log.Filter.choose otherEnvironment (levelText otherOptions other) =
      Log.Filter.choose environment (levelText options given))
    (hgrumbles : Log.Filter.grumbles otherEnvironment (levelText otherOptions other) =
      Log.Filter.grumbles environment (levelText options given)) :
    console others otherEnvironment otherArguments =
      console surroundings environment arguments := by
  unfold console
  rw [h.configure_eq htold hother]
  cases hconfigure : configure surroundings arguments with
  | error failure => rfl
  | ok settings =>
    have hlevel := htold.logLevel_eq hconfigure
    simp only [Except.map, launch_congr h.bind h.hostKey, hchoose, hgrumbles, hlevel]

end Start

/-! ## The first filter decides -/

/-- Every environment asks for a filter or is passed over. Where it asks for one, the lines that are
printed over a run are those of that filter, and the level that the command line or the file
configures makes no difference to them. Where it is passed over, they are those of the configured
level, by the command line, the file or the built-in value, and what the environment says makes no
difference. A plain level in force prints a line for every event up to it, and for no other; so of
two of them, wherever they are given, the less verbose one prints a subsequence of what the other
does. -/
theorem log_lines_of_first_filter {surroundings : Surroundings} {arguments : List Bytes}
    {options : Options} {given : Choice} (told : Told surroundings arguments options given) :
    (∀ environment, (∃ filter, Heeded environment filter) ∨ Unheeded environment) ∧
    (∀ environment, (console surroundings environment arguments).output =
      unlines (printed surroundings environment arguments [])) ∧
    (∀ environment filter, Heeded environment filter →
      (∀ later, printed surroundings environment arguments later =
        Log.lines filter (reported surroundings arguments later)) ∧
      ∀ others otherArguments otherOptions other,
        Told others otherArguments otherOptions other →
        LevelApart surroundings others options otherOptions given other →
        console others environment otherArguments = console surroundings environment arguments ∧
        ∀ later, printed others environment otherArguments later =
          printed surroundings environment arguments later) ∧
    (∀ environment, Unheeded environment →
      (∀ later, printed surroundings environment arguments later =
        Log.lines (.ofLevel (levelText options given).toList)
          (reported surroundings arguments later)) ∧
      ∀ another, Unheeded another →
        console surroundings another arguments = console surroundings environment arguments ∧
        ∀ later, printed surroundings another arguments later =
          printed surroundings environment arguments later) ∧
    (∀ environment limit, InForce environment (levelText options given) limit → ∀ later,
      printed surroundings environment arguments later =
        ((reported surroundings arguments later).filter fun event =>
          event.level.verbosity ≤ limit.verbosity).map Event.line) ∧
    ∀ environment another others otherArguments otherOptions other fewer more,
      Told others otherArguments otherOptions other →
      LevelApart surroundings others options otherOptions given other →
      InForce environment (levelText options given) fewer →
      InForce another (levelText otherOptions other) more →
      fewer.verbosity ≤ more.verbosity →
      ∀ later, (printed surroundings environment arguments later).Sublist
        (printed others another otherArguments later) := by
  refine ⟨heeded_or_unheeded, told.output_console, ?_, ?_, ?_, ?_⟩
  · intro environment filter heeded
    have hchoose := Log.Filter.choose_of_environment heeded.ofEnvironment?_eq
    refine ⟨fun later => by rw [told.printed_eq, hchoose], ?_⟩
    intro others otherArguments otherOptions other hother apart
    constructor
    · apply apart.console_eq told hother
      · rw [hchoose, hchoose]
      · rw [heeded.grumbles_eq, heeded.grumbles_eq]
    · intro later
      rw [told.printed_eq, hother.printed_eq, hchoose, hchoose, apart.reported_eq told hother]
  · intro environment unheeded
    have hchoose := fun {another} (h : Unheeded another) =>
      Log.Filter.choose_of_level h.ofEnvironment?_eq
    refine ⟨fun later => by rw [told.printed_eq, hchoose unheeded], ?_⟩
    intro another hanother
    constructor
    · apply LevelApart.console_eq ⟨rfl, rfl, rfl, rfl⟩ told told
      · rw [hchoose unheeded, hchoose hanother]
      · rw [unheeded.grumbles_eq, hanother.grumbles_eq]
    · intro later
      rw [told.printed_eq, told.printed_eq, hchoose unheeded, hchoose hanother]
  · intro environment limit hforce later
    rw [told.printed_eq, hforce.choose_eq, lines_upTo]
  · intro environment another others otherArguments otherOptions other fewer more hother apart hfewer
      hmore hle later
    rw [told.printed_eq, hother.printed_eq, hfewer.choose_eq, hmore.choose_eq,
      apart.reported_eq told hother]
    exact lines_upTo_sublist hle _

/-- The file says that warnings are printed, and another command line that everything is. An empty
text in the environment makes them the same; octets that are no text leave each its own level. -/
theorem log_lines_of_level_overridden :
    let surroundings : Surroundings :=
      ⟨fun _ => .octets (Utf8.ofString "[logging]\nlevel = \"warn\"\n"),
        fun _ endpoint => .ok endpoint, ⟨[]⟩⟩
    let options : Options := ⟨some (Utf8.ofString "f"), .all, none, none, none⟩
    let otherOptions : Options := { options with logLevel := some "trace" }
    let quiet := [Utf8.ofString "-c", Utf8.ofString "f"]
    let verbose := [Utf8.ofString "-c", Utf8.ofString "f", Utf8.ofString "--log-level=trace"]
    ∃ given, Told surroundings quiet options given ∧ Told surroundings verbose otherOptions given ∧
      LevelApart surroundings surroundings options otherOptions given given ∧
      Heeded (some []) (.upTo (.upTo .error)) ∧ Unheeded (some [255]) ∧
      InForce (some [255]) (levelText options given) (.upTo .warn) ∧
      InForce (some [255]) (levelText otherOptions given) (.upTo .trace) ∧
      (∀ later, printed surroundings (some []) verbose later =
        printed surroundings (some []) quiet later) ∧
      (∀ later, printed surroundings (some [255]) quiet later =
        Log.lines (.ofLevel "warn".toList) (reported surroundings quiet later)) ∧
      ∀ later, (printed surroundings (some [255]) quiet later).Sublist
        (printed surroundings (some [255]) verbose later) := by
  intro surroundings options otherOptions quiet verbose
  have line : Options.parse quiet = .ok options := by cbv
  have otherLine : Options.parse verbose = .ok otherOptions := by cbv
  have accepted : fileOf surroundings.files options.config =
      .ok { File.builtIn with logging := ⟨"warn"⟩ } := by cbv
  obtain ⟨given, hgiven, same⟩ := fileOf_eq_ok_iff.mp accepted
  have hlevel : levelText options given = "warn" := by
    rw [← levelText_eq, same]
    rfl
  have told : Told surroundings quiet options given := ⟨line, hgiven⟩
  have otherTold : Told surroundings verbose otherOptions given := ⟨otherLine, hgiven⟩
  have apart : LevelApart surroundings surroundings options otherOptions given given :=
    ⟨rfl, rfl, rfl, rfl⟩
  have heeded : Heeded (some []) (.upTo (.upTo .error)) :=
    show Heeded (some []) (.ofDirectives []) from .asked rfl rfl
  have unheeded : Unheeded (some [255]) := .notText (by decide +kernel)
  have warns : InForce (some [255]) (levelText options given) (.upTo .warn) :=
    .configured unheeded (hlevel ▸ plainLevel_name (.upTo .warn))
  have traces : InForce (some [255]) (levelText otherOptions given) (.upTo .trace) :=
    .configured unheeded (plainLevel_name (.upTo .trace))
  obtain ⟨-, -, hheeded, hunheeded, -, hlevels⟩ := log_lines_of_first_filter told
  refine ⟨given, told, otherTold, apart, heeded, unheeded, warns, traces, ?_, ?_, ?_⟩
  · exact ((hheeded _ _ heeded).2 _ _ _ _ otherTold apart).2
  · rw [← hlevel]
    exact (hunheeded _ unheeded).1
  · exact hlevels _ _ _ _ _ _ _ _ otherTold apart warns traces (by decide)

end PongFixture.Startup
