import PongFixture.Toml.Excerpt
import PongFixture.Proofs.Toml.Following

/-!
# A document with another text in the place of one

If one of the items of a document is a text on one line, then the document with another text in its
place is read too, and as the same items but for that one (`parse?_replaced`). The text is the only one
that begins there, and where anything stretches over it without having it inside, a header begins.
Headers begin their lines, with nothing but blanks before them and perhaps the mark that may begin a
document.
-/

set_option autoImplicit false

namespace PongFixture.Toml

/-! ## Where lines begin -/

/-- What is left of a text where one of its lines begins. -/
def BeginsLine (text cs : List Char) : Prop :=
  text = cs ∨ text = byteOrderMark :: cs ∨ ∃ front, text = front ++ '\n' :: cs

/-- A place with only blanks before it on its line. -/
def BlankBefore (text : List Char) (place : Nat) : Prop :=
  ∃ cs blanks rest, BeginsLine text cs ∧ cs = blanks ++ rest ∧ rest.length = place ∧
    ∀ c ∈ blanks, isSpace c = true

/-- After the end of a line nothing is left, or a line feed was read. -/
theorem lineEnd?_eq_some {cs rest : List Char} (h : lineEnd? cs = some rest) :
    rest = [] ∨ ∃ front, cs = front ++ '\n' :: rest := by
  cases cs with
  | nil =>
    cases h
    exact .inl rfl
  | cons c cs =>
    right
    change newline? (c :: cs) = some rest at h
    unfold newline? at h
    split at h
    · next same =>
      cases h
      exact ⟨[], same⟩
    · next same =>
      cases h
      exact ⟨['\r'], same⟩
    · cases h

/-- A line begins after a line feed that comes later than the beginning of a line. -/
theorem BeginsLine.of_suffix {text cs middle rest : List Char} (h : BeginsLine text cs)
    (suffix : middle <:+ cs) (newline : ∃ front, middle = front ++ '\n' :: rest) :
    BeginsLine text rest := by
  obtain ⟨front, rfl⟩ := newline
  obtain ⟨more, rfl⟩ := suffix
  rcases h with rfl | rfl | ⟨lines, rfl⟩
  · exact .inr (.inr ⟨more ++ front, by simp⟩)
  · exact .inr (.inr ⟨byteOrderMark :: (more ++ front), by simp⟩)
  · exact .inr (.inr ⟨lines ++ '\n' :: (more ++ front), by simp⟩)

/-- A header begins where it is read. -/
theorem begins_of_readHeader {cs rest : List Char} {statement : Statement} {begins : Nat → Prop}
    (h : readHeader cs = some (statement, rest)) (starts : begins cs.length) :
    statement.Begins begins := by
  rw [readHeader_eq] at h
  obtain ⟨⟨⟨_, row, path⟩, extent⟩, hread, rfl⟩ := Reader.mapped_eq_some_iff.mp h
  obtain ⟨-, rfl⟩ := Reader.spanned_eq_some_iff.mp hread
  cases row <;> exact starts

/-- A statement that is read where a header may begin begins where it may. -/
theorem begins_of_statementOnly {cs rest : List Char} {statement : Statement}
    {begins : Nat → Prop} (h : statementOnly cs = some (statement, rest))
    (starts : begins cs.length) : statement.Begins begins := by
  unfold statementOnly Reader.ifNext at h
  split at h
  · exact begins_of_readHeader h starts
  · obtain ⟨_, -, rfl⟩ := Reader.mapped_eq_some_iff.mp h
    trivial

/-- An empty text that is left as it is. Readers that follow its replacement leave a part of what they
read. -/
def Swap.idle : Swap where
  before := []
  quote := '"'
  old := ['"']
  new := ['"']
  after := []
  oldText := []
  newText := []
  isQuote := .inl rfl
  oldRead := rfl
  newRead := rfl
  oldLine := by decide
  newLine := by decide

/-- A statement leaves the end of what it was read from. -/
theorem statementOnly_suffix {cs rest : List Char} {statement : Statement}
    (h : statementOnly cs = some (statement, rest)) : rest <:+ cs :=
  (statementOnly_follows : Follows Swap.idle _ _).suffix h

/-- Skipping a comment leaves the end of what was given. -/
theorem skipComment_suffix (cs : List Char) : skipComment cs <:+ cs := by
  have hread : (fun cs => some ((), skipComment cs)) cs = some ((), skipComment cs) := rfl
  exact (skipComment_nearby Swap.idle.isQuote).suffix hread

section Lines

variable {text : List Char}

/-- A line is read up to the end of a line, from some place of it on. -/
theorem readLine_ends {cs rest : List Char} {statement : Option Statement}
    (h : readLine cs = some (statement, rest)) :
    (∃ middle, middle <:+ skipSpaces cs ∧ lineEnd? middle = some rest) ∧
      ∀ found ∈ statement, ∃ left, statementOnly (skipSpaces cs) = some (found, left) := by
  rw [readLine_eq] at h
  obtain ⟨⟨_, found⟩, hline, rfl⟩ := Reader.mapped_eq_some_iff.mp h
  obtain ⟨middle, hspaces, hbody⟩ := Reader.andThen_eq_some_iff.mp hline
  cases hspaces
  simp only at hbody
  unfold lineBody Reader.ifNext at hbody
  split at hbody
  · obtain ⟨_, hcomment, rfl⟩ := Reader.mapped_eq_some_iff.mp hbody
    obtain ⟨middle, hskip, hend⟩ := Reader.andThen_eq_some_iff.mp hcomment
    cases hskip
    exact ⟨⟨_, skipComment_suffix _, bare_eq_some_iff.mp hend⟩, by simp⟩
  · unfold Reader.afterOr at hbody
    split at hbody
    · next hend =>
      cases hbody
      exact ⟨⟨_, List.suffix_rfl, bare_eq_some_iff.mp hend⟩, by simp⟩
    · obtain ⟨statement, hstatement, rfl⟩ := Reader.mapped_eq_some_iff.mp hbody
      rw [readStatement_eq] at hstatement
      obtain ⟨⟨_, _⟩, hboth, rfl⟩ := Reader.mapped_eq_some_iff.mp hstatement
      obtain ⟨middle, honly, hend⟩ := Reader.andThen_eq_some_iff.mp hboth
      have hmiddle := (skipSpaces_suffix middle).trans (statementOnly_suffix honly)
      refine ⟨⟨_, (skipComment_suffix _).trans hmiddle, bare_eq_some_iff.mp hend⟩, ?_⟩
      rintro found ⟨⟩
      exact ⟨middle, honly⟩

/-- A line leaves the beginning of the next one, and its header has only blanks before it. -/
theorem readLine_begins {cs rest : List Char} {statement : Option Statement}
    (h : readLine cs = some (statement, rest)) (line : BeginsLine text cs) :
    (∀ found ∈ statement, found.Begins (BlankBefore text)) ∧
      (rest = [] ∨ BeginsLine text rest) := by
  obtain ⟨⟨middle, hmiddle, hend⟩, hfound⟩ := readLine_ends h
  constructor
  · intro found hmem
    obtain ⟨left, honly⟩ := hfound found hmem
    refine begins_of_statementOnly honly ⟨cs, cs.takeWhile isSpace, skipSpaces cs, line, ?_, rfl, ?_⟩
    · exact List.takeWhile_append_dropWhile.symm
    · intro c hc
      exact List.all_eq_true.mp List.all_takeWhile c hc
  · have hsuffix := hmiddle.trans (skipSpaces_suffix cs)
    exact (lineEnd?_eq_some hend).imp id (line.of_suffix hsuffix)

/-- Read from the beginning of a line, all headers have only blanks before them. -/
theorem readAll_begins (cs : List Char) : cs = [] ∨ BeginsLine text cs →
    ∀ statements, Statement.readAll cs = some statements →
      ∀ statement ∈ statements, statement.Begins (BlankBefore text) := by
  fun_induction Statement.readAll cs with
  | case1 => intro _ statements h; cases h; simp
  | case2 => intro _ statements h; cases h
  | case3 cs hcs found rest hline _ ih =>
    intro hstart statements h
    obtain ⟨others, hothers, rfl⟩ := Option.map_eq_some_iff.mp h
    have hcs : cs ≠ [] := by simpa using hcs
    obtain ⟨hfound, hrest⟩ := readLine_begins hline (hstart.resolve_left hcs)
    intro statement hstatement
    rcases List.mem_append.mp hstatement with hfirst | hlater
    · exact hfound statement (Option.mem_toList.mp hfirst)
    · exact ih hrest others hothers statement hlater
  | case4 => intro _ statements h; cases h

/-- A document begins a line behind its mark. -/
theorem beginsLine_skipMark (text : List Char) : BeginsLine text (skipMark text) := by
  cases text with
  | nil => exact .inl rfl
  | cons c cs =>
    by_cases hc : c = byteOrderMark
    · exact .inr (.inl (by simp [skipMark, hc]))
    · exact .inl (by simp [skipMark, hc])

end Lines

/-! ## Documents -/

/-- Reads the statements of a document. -/
def documentLines : Reader (List Statement) :=
  (Reader.andThen (fun cs => some ((), skipMark cs)) allLines).mapped Prod.snd

/-- The lines of a document are all read, behind the mark that may begin it. -/
theorem documentLines_eq_some_iff {cs rest : List Char} {statements : List Statement} :
    documentLines cs = some (statements, rest) ↔
      Statement.readAll (skipMark cs) = some statements ∧ rest = [] := by
  constructor
  · intro h
    obtain ⟨⟨_, found⟩, hread, rfl⟩ := Reader.mapped_eq_some_iff.mp h
    obtain ⟨middle, hmark, hlines⟩ := Reader.andThen_eq_some_iff.mp hread
    cases hmark
    obtain ⟨_, hall, same⟩ := Option.map_eq_some_iff.mp hlines
    cases same
    exact ⟨hall, rfl⟩
  · rintro ⟨h, rfl⟩
    simp [documentLines, Reader.mapped, Reader.andThen, allLines, h]

/-- A quote stops what skips the mark. -/
theorem skipMark_stops {quote : Char} (h : IsQuote quote) :
    Stops quote fun cs => some ((), skipMark cs) := by
  have hmark : quote ≠ byteOrderMark := by rcases h with rfl | rfl <;> decide
  apply ((expect_stops hmark).ifReads (fun _ => .pure ()) (.pure ())).congr
  intro cs
  cases cs with
  | nil => rfl
  | cons c cs => by_cases hc : c = byteOrderMark <;> simp [hc, skipMark, bare, expect]

/-- Reading the lines of a document follows the replacement. -/
theorem documentLines_follows {swap : Swap} : Follows swap swap.statement.list documentLines :=
  (skipMark_stops swap.isQuote).toNearby.follows.behind allLines_follows

/-- A document that has the text as an item is read with the other text in its place too. The text is
in it once, and every stretch is where it may be. -/
theorem parse?_replaced {swap : Swap} {entries : Entries}
    (parsed : Document.parse? (swap.before ++ swap.here) = some ⟨swap.before ++ swap.here, entries⟩)
    (has : entries.count swap ≠ 0) :
    Document.parse? (swap.before ++ swap.there) = some ⟨swap.before ++ swap.there, entries.edit swap⟩ ∧
      entries.count swap = 1 ∧
      entries.Placed swap (BlankBefore (swap.before ++ swap.here)) := by
  obtain ⟨found, hentries, same⟩ := Option.map_eq_some_iff.mp parsed
  cases same
  obtain ⟨statements, hstatements, hbuilt⟩ := Option.bind_eq_some_iff.mp hentries
  have hdistinct := invariant_distinct.readAll _ _ hstatements
  have hcount : entries.count swap = (statements.map (Statement.count swap)).sum :=
    ofStatements?_count hdistinct hbuilt
  have hbegins := readAll_begins _ (.inr (beginsLine_skipMark _)) _ hstatements
  have hread : documentLines (swap.before ++ swap.here) = some (statements, []) :=
    documentLines_eq_some_iff.mpr ⟨hstatements, rfl⟩
  have hlost : swap.statement.list.count statements ≠ 0 := by
    rw [hcount] at has
    exact has
  have hcourse := documentLines_follows.course (Nat.le_refl _) hread
  generalize hrest : ([] : List Char) = rest at hcourse
  cases hcourse with
  | ahead same hnone hplaced => exact absurd hnone hlost
  | past same hshort hone hplaced =>
    obtain ⟨hthere, -⟩ := documentLines_eq_some_iff.mp same
    refine ⟨?_, hcount.trans hone, ofStatements?_placed (fun statement hmem =>
      ⟨hplaced statement hmem, hbegins statement hmem⟩) hbuilt⟩
    refine Option.map_eq_some_iff.mpr ⟨_, Option.bind_eq_some_iff.mpr ⟨_, hthere, ?_⟩, rfl⟩
    exact ofStatements?_edit hbuilt
  | astray hshort hnone => exact absurd hnone hlost

end PongFixture.Toml
