import Mathlib
import PongFixture.Proofs.Text.Numeral
import PongFixture.Startup.Launch

/-!
# The canonical text of an address denotes it

Every address is read back from its canonical text (`parse?_print`): whichever run of zeros has
become a double colon, in the mapped form, and with a scope. So the text that the program prints for
an address can be given to it again, and two texts denote the same address exactly if they have the
same canonical text.

A reader takes as many groups as it can, so a printed text has to say where the groups end. What
follows groups in it is `EndsGroups`: no digit, no point that would turn the last group into the
first octet of version 4, and no colon with a digit behind it.
-/

set_option autoImplicit false

namespace PongFixture.Address

open Numeral

/-! ## Numbers -/

/-- A number that a form allows in the digits of its base. -/
structure NumberForm.Holds (form : NumberForm) (n : Nat) : Prop where
  one_lt : 1 < form.base
  base_le : form.base ≤ 16
  lt_bound : n < form.bound
  fits : ∀ most ∈ form.most, 0 < most ∧ n < form.base ^ most

/-- Every octet can be written as one of four numbers of an address. -/
theorem octetForm_holds (b : UInt8) : octetForm.Holds b.toNat where
  one_lt := by decide
  base_le := by decide
  lt_bound := b.toNat_lt
  fits := by
    rintro _ ⟨⟩
    have hb := b.toNat_lt
    exact ⟨by decide, by show b.toNat < 10 ^ 3; omega⟩

/-- Every group can be written as one of an address. -/
theorem groupForm_holds (group : UInt16) : groupForm.Holds group.toNat where
  one_lt := by decide
  base_le := by decide
  lt_bound := group.toNat_lt
  fits := by
    rintro _ ⟨⟩
    exact ⟨by decide, group.toNat_lt⟩

/-- Every port can be written. -/
theorem portForm_holds (port : UInt16) : portForm.Holds port.toNat where
  one_lt := by decide
  base_le := by decide
  lt_bound := port.toNat_lt
  fits := by rintro _ ⟨⟩

/-- Every scope can be written. -/
theorem scopeForm_holds (scope : UInt32) : scopeForm.Holds scope.toNat where
  one_lt := by decide
  base_le := by decide
  lt_bound := scope.toNat_lt
  fits := by rintro _ ⟨⟩

/-- A number that a form holds is allowed as it is written. -/
theorem NumberForm.Holds.allows {form : NumberForm} {n : Nat} (h : form.Holds n) :
    form.allows (digits form.base n) = true := by
  have hvalue : value form.base (digits form.base n) = n := value_digits h.one_lt h.base_le n
  have hlength : (form.most.all fun most => (digits form.base n).length ≤ most) = true := by
    cases hmost : form.most with
    | none => rfl
    | some most =>
      obtain ⟨hpos, hfits⟩ := h.fits most hmost
      exact decide_eq_true ((Nat.length_toDigits_le_iff h.one_lt hpos).mpr hfits)
  have hzero : ((digits form.base n).length == 1 ||
      (digits form.base n).head? != some '0') = true := by
    by_cases hn : n = 0
    · subst hn
      rw [digits_eq h.one_lt, if_pos (by have := h.one_lt; omega)]
      rfl
    · simp [head?_digits h.one_lt h.base_le hn]
  unfold NumberForm.allows
  rw [hvalue, hlength, Bool.or_assoc, hzero]
  simp [digits_ne_nil, h.lt_bound]

/-- A written number is read as far as it goes. -/
theorem readNumber_digits {form : NumberForm} {n : Nat} (h : form.Holds n) {rest : List Char}
    (ends : EndsDigits form.base rest) :
    readNumber form (digits form.base n ++ rest) = some (n, rest) := by
  obtain ⟨htake, hdrop⟩ := takeWhile_digits h.one_lt h.base_le n ends
  rw [readNumber, htake, hdrop, if_pos h.allows, value_digits h.one_lt h.base_le]

/-- Where no digit stands there is no number. -/
theorem readNumber_none {form : NumberForm} {cs : List Char} (h : EndsDigits form.base cs) :
    readNumber form cs = none := by
  have htake : cs.takeWhile (isDigit form.base) = [] := by
    cases cs with
    | nil => rfl
    | cons c cs => simp [h c rfl]
  rw [readNumber, htake]
  rfl

/-- A character is read where it stands. -/
theorem readChar_cons (c : Char) (rest : List Char) : readChar c (c :: rest) = some rest :=
  if_pos rfl

/-- A character is not read where another one stands. -/
theorem readChar_ne {c d : Char} (h : d ≠ c) (rest : List Char) : readChar c (d :: rest) = none :=
  if_neg h

/-- A character that is read stands in front of what is left. -/
theorem readChar_eq_some {c : Char} {cs rest : List Char} (h : readChar c cs = some rest) :
    cs = c :: rest := by
  cases cs with
  | nil => cases h
  | cons d cs =>
    rw [readChar] at h
    split at h
    · next same =>
      rw [same, Option.some.inj h]
    · cases h

/-! ## Version 4 -/

/-- An address of version 4 is read back in front of what is no digit. -/
theorem readIpv4_print (ip : Ipv4) {rest : List Char} (ends : EndsDigits 10 rest) :
    readIpv4 (ip.print ++ rest) = some (ip, rest) := by
  have octet : ∀ (b : UInt8) {rest : List Char}, EndsDigits 10 rest →
      readNumber octetForm (decimal b.toNat ++ rest) = some (b.toNat, rest) :=
    fun b _ ends => readNumber_digits (octetForm_holds b) ends
  have point : ∀ rest, EndsDigits 10 ('.' :: rest) := fun rest => endsDigits_cons (by decide) rest
  unfold readIpv4 Ipv4.print
  simp only [List.append_assoc, List.cons_append, octet _ (point _), octet _ ends, readChar_cons,
    Option.bind_eq_bind, Option.bind_some, UInt8.ofNat_toNat]
  rfl

/-- Where no point follows the first digits there is no address of version 4. -/
theorem readIpv4_none {cs : List Char} (h : (cs.dropWhile (isDigit 10)).head? ≠ some '.') :
    readIpv4 cs = none := by
  have hpoint : readChar '.' (cs.dropWhile (isDigit 10)) = none := by
    cases hrest : cs.dropWhile (isDigit 10) with
    | nil => rfl
    | cons c rest =>
      rw [hrest, List.head?_cons] at h
      exact readChar_ne (fun same => h (congrArg some same)) rest
  unfold readIpv4 readNumber
  split
  · simp only [octetForm, Option.bind_eq_bind, Option.bind_some, hpoint, Option.bind_none]
  · rfl

/-! ## Groups -/

/-- What follows groups: neither a digit nor a point, nor a colon with a digit behind it. -/
structure EndsGroups (rest : List Char) : Prop where
  noDigit : EndsDigits 16 rest
  noPoint : rest.head? ≠ some '.'
  noGroup : ∀ body, rest = ':' :: body → EndsDigits 16 body

/-- Groups end at a character that is neither a digit nor a point nor a colon. -/
theorem endsGroups_of_ne {c : Char} {rest : List Char} (hdigit : isDigit 16 c = false)
    (hpoint : c ≠ '.') (hcolon : c ≠ ':') : EndsGroups (c :: rest) where
  noDigit := endsDigits_cons hdigit rest
  noPoint := fun same => hpoint (Option.some.inj same)
  noGroup := fun _ same => absurd (List.cons.inj same).1 hcolon

/-- Groups end at two colons. -/
theorem endsGroups_gap (rest : List Char) : EndsGroups (':' :: ':' :: rest) where
  noDigit := endsDigits_cons (by decide) _
  noPoint := by simp
  noGroup := by
    rintro _ ⟨⟩
    exact endsDigits_cons (by decide) rest

/-- Groups that follow others, each behind a colon. -/
def printFollowing (groups : List UInt16) : List Char :=
  groups.flatMap fun group => ':' :: hexadecimal group.toNat

/-- Groups are written as the first one, and the others each behind a colon. -/
theorem printGroups_cons (group : UInt16) (groups : List UInt16) :
    printGroups (group :: groups) = hexadecimal group.toNat ++ printFollowing groups := by
  induction groups generalizing group with
  | nil => exact (List.append_nil _).symm
  | cons next groups ih =>
    show hexadecimal group.toNat ++ ':' :: printGroups (next :: groups) = _
    rw [ih]
    rfl

/-- After a group there is neither a digit nor a point, whether groups follow or they end. -/
theorem endsGroups_following (groups : List UInt16) {rest : List Char} (ends : EndsGroups rest) :
    EndsDigits 16 (printFollowing groups ++ rest) ∧
      (printFollowing groups ++ rest).head? ≠ some '.' := by
  cases groups with
  | nil => exact ⟨ends.noDigit, ends.noPoint⟩
  | cons group groups => exact ⟨endsDigits_cons (by decide) _, by simp [printFollowing]⟩

/-- A point is no digit. -/
theorem ne_point_of_isDigit {c : Char} (h : isDigit 16 c = true) : c ≠ '.' := by
  rintro rfl
  revert h
  decide

/-- A group is not the beginning of an address of version 4. -/
theorem readIpv4_group (group : UInt16) {rest : List Char} (ends : EndsDigits 16 rest)
    (noPoint : rest.head? ≠ some '.') : readIpv4 (hexadecimal group.toNat ++ rest) = none := by
  apply readIpv4_none
  have hdigits : ∀ c ∈ hexadecimal group.toNat, c ≠ '.' := fun c hc =>
    ne_point_of_isDigit (isDigit_of_mem_digits (by decide) (by decide) group.toNat c hc)
  generalize hexadecimal group.toNat = written at hdigits
  induction written with
  | nil =>
    cases rest with
    | nil => exact noPoint
    | cons c rest =>
      have hc : isDigit 10 c = false := ends.mono (by decide) c rfl
      rw [List.nil_append, List.dropWhile_cons_of_neg (by simp [hc])]
      exact noPoint
  | cons c written ih =>
    obtain ⟨hc, hwritten⟩ := List.forall_mem_cons.mp hdigits
    rw [List.cons_append, List.dropWhile_cons]
    split
    · exact ih hwritten
    · rw [List.head?_cons]
      exact fun same => hc (Option.some.inj same)

/-- A group is read back in front of what is no digit. -/
theorem readNumber_group (group : UInt16) {rest : List Char} (ends : EndsDigits 16 rest) :
    readNumber groupForm (hexadecimal group.toNat ++ rest) = some (group.toNat, rest) :=
  readNumber_digits (groupForm_holds group) ends

/-- Where no digit comes next there is no address of version 4. -/
theorem readIpv4_endsDigits {cs : List Char} (ends : EndsDigits 16 cs) : readIpv4 cs = none := by
  have hnone : readNumber octetForm cs = none := readNumber_none (ends.mono (by decide))
  unfold readIpv4
  rw [hnone]
  rfl

/-- The text of the next group: all there is for the first one, what follows a colon for others. -/
def groupText (first : Bool) (cs : List Char) : Option (List Char) :=
  if first then some cs else readChar ':' cs

/-- A group is read, and then the groups that follow it. -/
theorem readGroups_group {room : Nat} {first : Bool} {cs : List Char} {group : UInt16}
    {rest : List Char} (hbody : groupText first cs = some (hexadecimal group.toNat ++ rest))
    (ends : EndsDigits 16 rest) (noPoint : rest.head? ≠ some '.') :
    readGroups (room + 1) first cs =
      let others := readGroups room false rest
      ⟨group :: others.groups, others.embedded, others.rest⟩ := by
  have hembedded :
      (if room = 0 then none else readIpv4 (hexadecimal group.toNat ++ rest)) = none := by
    rw [readIpv4_group group ends noPoint, ite_self]
  unfold groupText at hbody
  simp only [readGroups, hbody, hembedded, readNumber_group group ends, UInt16.ofNat_toNat]

/-- Where no group comes next, none is read. -/
theorem readGroups_end {room : Nat} {first : Bool} {cs : List Char}
    (h : ∀ body, groupText first cs = some body → EndsDigits 16 body) :
    readGroups room first cs = ⟨[], false, cs⟩ := by
  unfold groupText at h
  cases room with
  | zero => rfl
  | succ room =>
    cases hbody : (if first then some cs else readChar ':' cs) with
    | none => simp only [readGroups, hbody]
    | some body =>
      have ends := h body hbody
      have hnone : readNumber groupForm body = none := readNumber_none ends
      simp only [readGroups, hbody, readIpv4_endsDigits ends, ite_self, hnone]

/-- Groups behind colons are read back, as far as there is room for them. -/
theorem readGroups_following {groups : List UInt16} {room : Nat} (hroom : groups.length ≤ room)
    {rest : List Char} (ends : EndsGroups rest) :
    readGroups room false (printFollowing groups ++ rest) = ⟨groups, false, rest⟩ := by
  induction groups generalizing room with
  | nil =>
    apply readGroups_end
    intro body hbody
    exact ends.noGroup body (readChar_eq_some hbody)
  | cons group groups ih =>
    obtain ⟨noDigit, noPoint⟩ := endsGroups_following groups ends
    obtain ⟨room, rfl⟩ : ∃ fewer, room = fewer + 1 := ⟨room - 1, by simp at hroom; omega⟩
    have hbody : groupText false (printFollowing (group :: groups) ++ rest) =
        some (hexadecimal group.toNat ++ (printFollowing groups ++ rest)) := by
      simp [groupText, printFollowing, readChar_cons]
    rw [readGroups_group hbody noDigit noPoint, ih (by simpa using hroom)]

/-- Groups are read back, as far as there is room for them. -/
theorem readGroups_print {groups : List UInt16} {room : Nat} (hroom : groups.length ≤ room)
    {rest : List Char} (ends : EndsGroups rest) :
    readGroups room true (printGroups groups ++ rest) = ⟨groups, false, rest⟩ := by
  cases groups with
  | nil =>
    apply readGroups_end
    rintro body ⟨⟩
    exact ends.noDigit
  | cons group groups =>
    obtain ⟨noDigit, noPoint⟩ := endsGroups_following groups ends
    obtain ⟨room, rfl⟩ : ∃ fewer, room = fewer + 1 := ⟨room - 1, by simp at hroom; omega⟩
    rw [printGroups_cons, List.append_assoc, readGroups_group rfl noDigit noPoint,
      readGroups_following (by simpa using hroom) ends]

/-! ## Version 6 -/

/-- A run of neighbours in a list consists of zeros. -/
structure Run.IsZeros (run : Run) (groups : List UInt16) : Prop where
  within : run.start + run.length ≤ groups.length
  filled : groups.take run.start ++ (List.replicate run.length 0 ++
    groups.drop (run.start + run.length)) = groups

/-- The longest run of zeros consists of zeros. -/
theorem longestZeros_isZeros (groups : List UInt16) : (longestZeros groups).IsZeros groups := by
  induction groups with
  | nil => exact ⟨Nat.le_refl _, rfl⟩
  | cons group groups ih =>
    obtain ⟨hwithin, hfilled⟩ := ih
    rw [longestZeros]
    split
    · constructor
      · simp only [List.length_cons]
        omega
      · simp only [Nat.add_right_comm _ 1, List.take_succ_cons, List.drop_succ_cons,
          List.cons_append, hfilled]
    · have hzeros : ∀ other ∈ (group :: groups).takeWhile (· == 0), other = 0 := by
        intro other hother
        simpa using List.mem_takeWhile_imp hother
      have hsplit := List.takeWhile_append_dropWhile (p := (· == 0)) (l := group :: groups)
      generalize (group :: groups).takeWhile (· == 0) = zeros at hzeros hsplit ⊢
      rw [← hsplit]
      constructor
      · simp only [Nat.zero_add, List.length_append, Nat.le_add_right]
      · simp only [List.take_zero, List.nil_append, Nat.zero_add, List.drop_left]
        rw [← List.eq_replicate_of_mem hzeros]

/-- An address of version 6 is made again from its groups. -/
theorem ofList?_groups (ip : Ipv6) : Ipv6.ofList? ip.groups = some ip := dif_pos ip.size

/-- The two groups of an address of version 4 are those it is made from. -/
theorem groups_ofGroups (high low : UInt16) : (Ipv4.ofGroups high low).groups = [high, low] := by
  have hhalf : ∀ group : UInt16, (group / 256).toUInt8.toUInt16 * 256 + group.toUInt8.toUInt16 =
      group := by
    intro group
    apply UInt16.toNat_inj.mp
    have hgroup := group.toNat_lt
    simp
    omega
  rw [Ipv4.groups, Ipv4.ofGroups, hhalf, hhalf]

/-- An address that is mapped stands for the address of version 4 in its last two groups. -/
theorem groups_of_mapped? {ip : Ipv6} {inner : Ipv4} (h : ip.mapped? = some inner) :
    ip.groups = [0, 0, 0, 0, 0, 0xFFFF] ++ inner.groups := by
  unfold Ipv6.mapped? at h
  split at h
  · next high low hgroups =>
    rw [hgroups, ← Option.some.inj h, groups_ofGroups]
    rfl
  · cases h

/-- An address of version 6 with all its groups written is read back. -/
theorem readIpv6_plain (ip : Ipv6) {rest : List Char} (ends : EndsGroups rest) :
    readIpv6 (printGroups ip.groups ++ rest) = some (ip, rest) := by
  unfold readIpv6
  rw [readGroups_print (Nat.le_of_eq ip.size) ends]
  simp only [ip.size, ↓reduceIte, ofList?_groups, Option.bind_eq_bind, Option.bind_some]
  rfl

/-- What is read on both sides of a gap is filled up with zeros. -/
theorem readIpv6_gap {cs body : List Char} {head : List UInt16} {tail : Groups} {ip : Ipv6}
    (hhead : readGroups 8 true cs = ⟨head, false, ':' :: ':' :: body⟩) (hshort : head.length ≠ 8)
    (htail : readGroups (7 - head.length) true body = tail)
    (hgroups : head ++ List.replicate (8 - head.length - tail.groups.length) 0 ++ tail.groups =
      ip.groups) : readIpv6 cs = some (ip, tail.rest) := by
  unfold readIpv6
  rw [hhead]
  simp only [hshort, ↓reduceIte, Bool.false_eq_true, readChar_cons, Option.bind_eq_bind,
    Option.bind_some, htail, hgroups, ofList?_groups]
  rfl

/-- An address of version 6 with its zeros left out is read back. -/
theorem readIpv6_around (ip : Ipv6) (hrun : 1 < (longestZeros ip.groups).length) {rest : List Char}
    (ends : EndsGroups rest) :
    readIpv6 (printAround (longestZeros ip.groups) ip.groups ++ rest) = some (ip, rest) := by
  obtain ⟨hwithin, hfilled⟩ := longestZeros_isZeros ip.groups
  generalize longestZeros ip.groups = run at *
  have hsize := ip.size
  have hheadLength : (ip.groups.take run.start).length = run.start := by
    rw [List.length_take]
    omega
  have htailLength : (ip.groups.drop (run.start + run.length)).length =
      8 - (run.start + run.length) := by
    rw [List.length_drop, hsize]
  have hheadRoom : (ip.groups.take run.start).length ≤ 8 := by omega
  have htailRoom : (ip.groups.drop (run.start + run.length)).length ≤
      7 - (ip.groups.take run.start).length := by omega
  have hhead := readGroups_print hheadRoom
    (endsGroups_gap (printGroups (ip.groups.drop (run.start + run.length)) ++ rest))
  have htail := readGroups_print htailRoom ends
  have hgap : 8 - (ip.groups.take run.start).length -
      (ip.groups.drop (run.start + run.length)).length = run.length := by
    omega
  rw [printAround, List.append_assoc, List.cons_append, List.cons_append]
  apply readIpv6_gap hhead (by omega) htail
  rw [hgap, List.append_assoc, hfilled]

/-- An address of version 6 that ends with one of version 4 is read back. -/
theorem readIpv6_mapped {ip : Ipv6} {inner : Ipv4}
    (hgroups : ip.groups = [0, 0, 0, 0, 0, 0xFFFF] ++ inner.groups) {rest : List Char}
    (ends : EndsDigits 10 rest) :
    readIpv6 ("::ffff:".toList ++ inner.print ++ rest) = some (ip, rest) := by
  have hhead : readGroups 8 true ("::ffff:".toList ++ inner.print ++ rest) =
      ⟨[], false, "::ffff:".toList ++ inner.print ++ rest⟩ := by
    apply readGroups_end
    rintro body ⟨⟩
    exact endsDigits_cons (by decide) _
  have hinner := readIpv4_print inner ends
  have htail : readGroups 7 true ("ffff:".toList ++ inner.print ++ rest) =
      ⟨0xFFFF :: inner.groups, true, rest⟩ := by
    have hbody : groupText true ("ffff:".toList ++ inner.print ++ rest) =
        some (hexadecimal (0xFFFF : UInt16).toNat ++ ':' :: (inner.print ++ rest)) := rfl
    rw [readGroups_group hbody (endsDigits_cons (by decide) _) (by simp)]
    simp [readGroups, readChar_cons, hinner]
  apply readIpv6_gap hhead (by decide) htail
  rw [hgroups]
  rfl

/-- An address of version 6 is read back in front of what ends its groups. -/
theorem readIpv6_print (ip : Ipv6) {rest : List Char} (ends : EndsGroups rest) :
    readIpv6 (ip.print ++ rest) = some (ip, rest) := by
  unfold Ipv6.print
  split
  · next inner hmapped =>
    exact readIpv6_mapped (groups_of_mapped? hmapped) (ends.noDigit.mono (by decide))
  · split
    · next hrun => exact readIpv6_around ip hrun ends
    · exact readIpv6_plain ip ends

/-! ## Endpoints -/

/-- A port is read back. -/
theorem readPort_print (port : UInt16) :
    readPort (':' :: decimal port.toNat) = some (port, []) := by
  have hport : readNumber portForm (decimal port.toNat ++ []) = some (port.toNat, []) :=
    readNumber_digits (portForm_holds port) endsDigits_nil
  rw [List.append_nil] at hport
  simp [readPort, readChar_cons, hport]

/-- A scope is read back in front of what is no digit, also where none is written. -/
theorem readScope_print (scope : UInt32) {rest : List Char} (ends : EndsDigits 10 rest)
    (noScope : readChar '%' rest = none) :
    readScope (printScope scope ++ rest) = some (scope, rest) := by
  have hscope : readNumber scopeForm (decimal scope.toNat ++ rest) = some (scope.toNat, rest) :=
    readNumber_digits (scopeForm_holds scope) ends
  unfold printScope
  split
  · next hzero =>
    rw [List.nil_append, readScope, noScope, hzero]
  · rw [List.cons_append, readScope, readChar_cons]
    simp [hscope]

/-- Every endpoint is read back from its canonical text. -/
theorem parse?_print (endpoint : Endpoint) : parse? endpoint.print = some endpoint := by
  have colon : ∀ rest, EndsDigits 10 (':' :: rest) := fun rest => endsDigits_cons (by decide) rest
  unfold parse? readEndpoint
  cases endpoint with
  | v4 ip port =>
    have hread : readEndpoint4 (Endpoint.v4 ip port).print = some (.v4 ip port, []) := by
      simp [readEndpoint4, Endpoint.print, readIpv4_print ip (colon _), readPort_print]
    rw [hread]
    rfl
  | v6 ip scope port =>
    have hother : readEndpoint4 (Endpoint.v6 ip scope port).print = none := by
      have hnone : ∀ cs, readIpv4 ('[' :: cs) = none := fun cs =>
        readIpv4_endsDigits (endsDigits_cons (by decide) cs)
      simp [readEndpoint4, Endpoint.print, hnone]
    have hip : EndsGroups (printScope scope ++ ']' :: ':' :: decimal port.toNat) := by
      unfold printScope
      split
      · exact endsGroups_of_ne (by decide) (by decide) (by decide)
      · exact endsGroups_of_ne (by decide) (by decide) (by decide)
    have hbracket : EndsDigits 10 (']' :: ':' :: decimal port.toNat) :=
      endsDigits_cons (by decide) _
    have hscope := readScope_print scope hbracket (readChar_ne (by decide) _)
    have hread :
        readEndpoint6 (Endpoint.v6 ip scope port).print = some (.v6 ip scope port, []) := by
      simp [readEndpoint6, Endpoint.print, readChar_cons, readIpv6_print ip hip, hscope,
        readPort_print]
    rw [hother, hread]
    rfl

/-- No two endpoints have the same text. -/
theorem display_injective {first second : Endpoint} (h : first.display = second.display) :
    first = second := by
  have hfirst := parse?_print first
  rw [String.ofList_injective h, parse?_print] at hfirst
  exact (Option.some.inj hfirst).symm

/-! ## Texts -/

open Settings

/-- The canonical text of the address that a text denotes. -/
def canonical? (text : String) : Except ConfigError String :=
  (parseAddress text).map Endpoint.display

/-- The text of an endpoint is accepted as that endpoint. -/
theorem parseAddress_display (endpoint : Endpoint) :
    parseAddress endpoint.display = .ok endpoint := by
  rw [parseAddress, Endpoint.display, String.toList_ofList, parse?_print]

/-- A text has the canonical text of an endpoint exactly if it denotes that endpoint. -/
theorem canonical?_eq_ok_iff {text : String} {endpoint : Endpoint} :
    canonical? text = .ok endpoint.display ↔ parseAddress text = .ok endpoint := by
  unfold canonical?
  cases parseAddress text with
  | error error => simp [Except.map]
  | ok other =>
    simp only [Except.map, Except.ok.injEq]
    exact ⟨display_injective, congrArg Endpoint.display⟩

/-- Every address is read back from its canonical text, and from what a start prints. A text that
denotes an address has a canonical text, which is its own, denotes the same address, and is that of
no other address. Any other text is refused and stands in the refusal as it is. -/
theorem canonical_text_denotes_address :
    (∀ endpoint : Endpoint, parseAddress endpoint.display = .ok endpoint) ∧
      (∀ settings : Settings, ∃ telnet ssh,
        (Startup.starting settings).fields =
            [.plain "protocol" settings.protocol.label, .plain "telnet" telnet, .plain "ssh" ssh] ∧
          parseAddress telnet = .ok settings.telnetListen ∧
          parseAddress ssh = .ok settings.sshListen) ∧
      ∀ text : String,
        (∃ endpoint, parseAddress text = .ok endpoint ∧
            canonical? text = .ok endpoint.display ∧
            parseAddress endpoint.display = .ok endpoint ∧
            canonical? endpoint.display = .ok endpoint.display ∧
            ∀ other, canonical? other = canonical? text ↔ parseAddress other = .ok endpoint) ∨
          (∀ endpoint, parseAddress text ≠ .ok endpoint) ∧
            parseAddress text = .error (.invalidAddress text) := by
  refine ⟨parseAddress_display, ?_, ?_⟩
  · intro settings
    exact ⟨_, _, rfl, parseAddress_display _, parseAddress_display _⟩
  · intro text
    cases hparse : parse? text.toList with
    | none =>
      have hrefused : parseAddress text = .error (.invalidAddress text) := by
        rw [parseAddress, hparse]
      exact .inr ⟨by simp [hrefused], hrefused⟩
    | some endpoint =>
      have haccepted : parseAddress text = .ok endpoint := by
        rw [parseAddress, hparse]
      have hcanonical := canonical?_eq_ok_iff.mpr haccepted
      refine .inl ⟨endpoint, haccepted, hcanonical, parseAddress_display endpoint,
        canonical?_eq_ok_iff.mpr (parseAddress_display endpoint), ?_⟩
      intro other
      rw [hcanonical]
      exact canonical?_eq_ok_iff

example : canonical? "[0:0:1:0:0:0:FFFF:1%7]:080" = .ok "[0:0:1::ffff:1%7]:80" := by cbv

end PongFixture.Address
