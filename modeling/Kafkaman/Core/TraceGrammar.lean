import Kafkaman.Core.Trace
import Kafkaman.Lib.Fallible

/-!
# Core.TraceGrammar — trace context against the grammar of the Recommendation

The checks of `Core.Trace` are loops over pieces with early exits.  Here the two headers are described
by position and by production, and the checks are shown to accept exactly what is described.

* `wellFormedTraceparent_iff` — a `traceparent`, field by field;
* `memberKey_eq_some` — a list member of `tracestate`, key and value;
* `tracestate_iff` — which lists are kept, and what is kept of them.
-/

namespace Kafkaman
namespace TraceContext

open Lib SeparatedList
open Lib.Utf8 (byteLen byteLen_cons isAsciiLowercase isAsciiDigit)

/-! ## Characters -/

/-- A lowercase hexadecimal digit. -/
def LowerHex (c : Char) : Prop :=
  ('0' ≤ c ∧ c ≤ '9') ∨ ('a' ≤ c ∧ c ≤ 'f')

theorem byteLen_eq_length {chars : List Char} (h : ∀ c ∈ chars, c ≤ '~') :
    byteLen chars = chars.length := by
  induction chars with
  | nil =>
      rfl
  | cons c rest ih =>
      rw [List.forall_mem_cons] at h
      have hone : c.utf8Size = 1 := by
        have hle : c.val ≤ '~'.val := h.1
        rw [Char.utf8Size_eq_one_iff]
        exact UInt32.le_trans hle (by decide)
      rw [byteLen_cons, hone, ih h.2, List.length_cons, Nat.add_comm]

theorem LowerHex.le {c : Char} (h : LowerHex c) : c ≤ '~' :=
  h.elim (fun h => Char.le_trans h.2 (by decide)) fun h => Char.le_trans h.2 (by decide)

/-- So many lowercase hexadecimal digits. -/
def HexDigits (len : Nat) (value : List Char) : Prop :=
  value.length = len ∧ ∀ c ∈ value, LowerHex c

theorem HexDigits.dash_not_mem {len : Nat} {value : List Char} (h : HexDigits len value) :
    '-' ∉ value := by
  intro hmem
  rcases h.2 '-' hmem with h | h
  · exact absurd h.1 (by decide)
  · exact absurd h.1 (by decide)

theorem isHex_iff {value : List Char} {len : Nat} :
    isHex value len = true ↔ HexDigits len value := by
  unfold isHex HexDigits
  rw [Bool.and_eq_true, decide_eq_true_iff, List.all_eq_true]
  have halphabet : (∀ c ∈ value, (('0' ≤ c && c ≤ '9') || ('a' ≤ c && c ≤ 'f')) = true) ↔
      ∀ c ∈ value, LowerHex c := by
    simp [LowerHex]
  rw [halphabet]
  refine and_congr_left fun hhex => ?_
  rw [byteLen_eq_length fun c hc => (hhex c hc).le]

/-! ## `traceparent` -/

theorem acceptsAppended_iff {version : List Char} {appended : Nat} {fields : List (List Char)}
    (happended : appended ≤ maxAppendedFields) :
    acceptsAppended version appended fields = true ↔
      (∀ field ∈ fields, field ≠ []) ∧ appended + fields.length ≤ maxAppendedFields ∧
        (version = ['0', '0'] → fields = []) := by
  induction fields generalizing appended with
  | nil =>
      simp [acceptsAppended, happended]
  | cons field fields ih =>
      rw [acceptsAppended]
      split
      · rename_i hstop
        -- The loop stops at this field: version `00`, an empty field, or one field too many.
        simp only [Bool.or_eq_true, decide_eq_true_eq, List.isEmpty_iff] at hstop
        refine iff_of_false Bool.false_ne_true ?_
        rintro ⟨hne, hfew, hclosed⟩
        rcases hstop with (hzero | hempty) | hmany
        · cases hclosed hzero
        · exact hne field List.mem_cons_self hempty
        · rw [List.length_cons] at hfew
          omega
      · rename_i hgo
        simp only [Bool.or_eq_true, decide_eq_true_eq, List.isEmpty_iff, not_or] at hgo
        -- It goes on, with one field more behind it.
        rcases hgo with ⟨⟨hversion, hfield⟩, hroom⟩
        rw [ih (by omega), List.forall_mem_cons, List.length_cons]
        constructor
        · rintro ⟨hne, hfew, -⟩
          exact ⟨⟨hfield, hne⟩, by omega, fun hzero => absurd hzero hversion⟩
        · rintro ⟨⟨-, hne⟩, hfew, -⟩
          exact ⟨hne, by omega, fun hzero => absurd hzero hversion⟩

theorem isWellFormedTraceparent_of_split {s : String} {version traceId parentId flags : List Char}
    {further : List (List Char)}
    (hsplit : s.toList.splitOn '-' = version :: traceId :: parentId :: flags :: further) :
    isWellFormedTraceparent s = true ↔
      (HexDigits 2 version ∧ version ≠ ['f', 'f']) ∧
      ((∀ field ∈ further, field ≠ []) ∧ further.length ≤ maxAppendedFields ∧
        (version = ['0', '0'] → further = [])) ∧
      (HexDigits 32 traceId ∧ ∃ c ∈ traceId, c ≠ '0') ∧
      (HexDigits 16 parentId ∧ ∃ c ∈ parentId, c ≠ '0') ∧ HexDigits 2 flags := by
  have happended : acceptsAppended version 0 further = true ↔ (∀ field ∈ further, field ≠ []) ∧
      0 + further.length ≤ maxAppendedFields ∧ (version = ['0', '0'] → further = []) :=
    acceptsAppended_iff (Nat.zero_le _)
  rw [Nat.zero_add] at happended
  have hany : ∀ value : List Char, value.any (· ≠ '0') = true ↔ ∃ c ∈ value, c ≠ '0' := by simp
  unfold isWellFormedTraceparent
  rw [hsplit]
  simp only
  -- The version is looked at first; everything else is one conjunction.
  split
  · rename_i hversion
    refine iff_of_false Bool.false_ne_true fun h => ?_
    rw [Bool.or_eq_true, Bool.not_eq_true', decide_eq_true_eq] at hversion
    rcases hversion with hhex | hff
    · rw [isHex_iff.2 h.1.1] at hhex
      cases hhex
    · exact h.1.2 hff
  · rename_i hversion
    rw [Bool.or_eq_true, Bool.not_eq_true', decide_eq_true_eq, not_or, Bool.not_eq_false,
      isHex_iff] at hversion
    simp only [Bool.and_eq_true, happended, isHex_iff, hany, and_assoc, hversion.1, true_and]
    exact (and_iff_right hversion.2).symm

/-- A `traceparent` by position: version, trace id, parent id and flags, and after them at most twelve
fields that are not empty, none of them in version `00`. -/
theorem wellFormedTraceparent_iff (s : String) :
    isWellFormedTraceparent s = true ↔
      ∃ (version traceId parentId flags : List Char) (further : List (List Char)),
        s.toList = version ++ '-' :: traceId ++ '-' :: parentId ++ '-' :: flags ++
          (further.flatMap fun field => '-' :: field) ∧
        HexDigits 2 version ∧ HexDigits 32 traceId ∧ HexDigits 16 parentId ∧ HexDigits 2 flags ∧
        version ≠ ['f', 'f'] ∧ (∃ c ∈ traceId, c ≠ '0') ∧ (∃ c ∈ parentId, c ≠ '0') ∧
        further.length ≤ 12 ∧ (∀ field ∈ further, field ≠ [] ∧ '-' ∉ field) ∧
        (version = ['0', '0'] → further = []) := by
  constructor
  · intro h
    -- At least four pieces; the rest of the pieces are the appended fields.
    match hsplit : s.toList.splitOn '-' with
    | version :: traceId :: parentId :: flags :: further =>
        rcases splitOn_eq_cons_iff.1 hsplit with ⟨htext, -, hdash⟩
        rcases (isWellFormedTraceparent_of_split hsplit).1 h with
          ⟨⟨hversion, hff⟩, ⟨hne, hfew, hclosed⟩, ⟨htrace, htrace'⟩, ⟨hparent, hparent'⟩, hflags⟩
        refine ⟨version, traceId, parentId, flags, further, ?_, hversion, htrace, hparent, hflags, hff,
          htrace', hparent', hfew, fun field hfield => ⟨hne field hfield, ?_⟩, hclosed⟩
        · simpa using htext
        · exact hdash field (by simp [hfield])
    | [] | [_] | [_, _] | [_, _, _] =>
        simp [isWellFormedTraceparent, hsplit] at h
  · rintro ⟨version, traceId, parentId, flags, further, htext, hversion, htrace, hparent, hflags, hff,
      htrace', hparent', hfew, hfurther, hclosed⟩
    -- Hex fields hold no dash, so splitting gives the fields back.
    have hsplit : s.toList.splitOn '-' = version :: traceId :: parentId :: flags :: further := by
      refine splitOn_eq_cons_iff.2 ⟨by simpa using htext, hversion.dash_not_mem, ?_⟩
      simp only [List.forall_mem_cons]
      exact ⟨htrace.dash_not_mem, hparent.dash_not_mem, hflags.dash_not_mem,
        fun field hfield => (hfurther field hfield).2⟩
    exact (isWellFormedTraceparent_of_split hsplit).2 ⟨⟨hversion, hff⟩,
      ⟨fun field hfield => (hfurther field hfield).1, hfew, hclosed⟩, ⟨htrace, htrace'⟩,
      ⟨hparent, hparent'⟩, hflags⟩

/-! ## `tracestate` -/

def LcAlpha (c : Char) : Prop :=
  'a' ≤ c ∧ c ≤ 'z'

def Digit (c : Char) : Prop :=
  '0' ≤ c ∧ c ≤ '9'

def KeyChar (c : Char) : Prop :=
  LcAlpha c ∨ Digit c ∨ c = '_' ∨ c = '-' ∨ c = '*' ∨ c = '/'

/-- Printable ASCII without comma and equals sign. -/
def ValueChar (c : Char) : Prop :=
  ' ' ≤ c ∧ c ≤ '~' ∧ c ≠ ',' ∧ c ≠ '='

/-- `simple-key` and `multi-tenant-key`. -/
inductive IsKey : List Char → Prop
  | simple (first : Char) (rest : List Char) (hfirst : LcAlpha first)
      (hrest : ∀ c ∈ rest, KeyChar c) (hlen : rest.length ≤ 255) : IsKey (first :: rest)
  | multiTenant (first : Char) (tenant : List Char) (hfirst : LcAlpha first ∨ Digit first)
      (htenant : ∀ c ∈ tenant, KeyChar c) (htenantLen : tenant.length ≤ 240)
      (systemFirst : Char) (system : List Char) (hsystemFirst : LcAlpha systemFirst)
      (hsystem : ∀ c ∈ system, KeyChar c) (hsystemLen : system.length ≤ 13) :
      IsKey ((first :: tenant) ++ '@' :: systemFirst :: system)

/-- One to 256 characters, the last of them not a blank. -/
structure IsValue (value : List Char) : Prop where
  ne_nil : value ≠ []
  short : value.length ≤ 256
  chars : ∀ c ∈ value, ValueChar c
  last : value.getLast? ≠ some ' '

/-- A list member with this key. -/
def IsListMember (member key : List Char) : Prop :=
  ∃ value, member = key ++ '=' :: value ∧ IsKey key ∧ IsValue value

theorem splitOnce_append {separator : Char} {front : List Char} (back : List Char)
    (h : separator ∉ front) : splitOnce separator (front ++ separator :: back) = some (front, back) := by
  have hfront : ∀ c ∈ front, decide (c ≠ separator) = true := by
    intro c hc
    exact decide_eq_true fun heq => h (heq ▸ hc)
  have hstop : decide (separator ≠ separator) = false := decide_eq_false fun hne => hne rfl
  unfold splitOnce
  rw [List.dropWhile_append_of_pos hfront, List.takeWhile_append_of_pos hfront, List.dropWhile_cons,
    List.takeWhile_cons, hstop]
  simp

theorem splitOnce_eq_none {separator : Char} {value : List Char} :
    splitOnce separator value = none ↔ separator ∉ value := by
  constructor
  · intro h hmem
    rcases List.eq_append_cons_of_mem hmem with ⟨front, back, rfl, hfront⟩
    rw [splitOnce_append back hfront] at h
    cases h
  · intro h
    have hdrop : value.dropWhile (· ≠ separator) = [] := by
      rw [List.dropWhile_eq_nil_iff]
      intro c hc
      exact decide_eq_true fun heq => h (heq ▸ hc)
    rw [splitOnce, hdrop]

theorem splitOnce_eq_some {separator : Char} {value front back : List Char} :
    splitOnce separator value = some (front, back) ↔
      value = front ++ separator :: back ∧ separator ∉ front := by
  constructor
  · intro h
    by_cases hmem : separator ∈ value
    · rcases List.eq_append_cons_of_mem hmem with ⟨front', back', rfl, hfront⟩
      rw [splitOnce_append back' hfront] at h
      cases h
      exact ⟨rfl, hfront⟩
    · rw [splitOnce_eq_none.2 hmem] at h
      cases h
  · rintro ⟨rfl, hfront⟩
    exact splitOnce_append back hfront

theorem isKeyByte_iff {c : Char} : isKeyByte c = true ↔ KeyChar c := by
  simp [isKeyByte, KeyChar, isAsciiLowercase, isAsciiDigit, LcAlpha, Digit, or_assoc]

theorem KeyChar.le {c : Char} (h : KeyChar c) : c ≤ '~' := by
  rcases h with h | h | rfl | rfl | rfl | rfl
  · exact Char.le_trans h.2 (by decide)
  · exact Char.le_trans h.2 (by decide)
  all_goals decide

theorem KeyChar.ne {c : Char} (h : KeyChar c) : c ≠ '@' ∧ c ≠ '=' := by
  constructor <;> rintro rfl <;> revert h <;> simp [KeyChar, LcAlpha, Digit]

theorem isKeyPart_iff {max : Nat} {first : Char → Bool} {part : List Char}
    (hfirst : ∀ c, first c = true → KeyChar c) :
    isKeyPart (max + 1) first part = true ↔
      ∃ c rest, part = c :: rest ∧ first c = true ∧ (∀ c ∈ rest, KeyChar c) ∧ rest.length ≤ max := by
  unfold isKeyPart
  simp only [Bool.and_eq_true, decide_eq_true_eq, List.all_eq_true, isKeyByte_iff]
  constructor
  · rintro ⟨⟨⟨-, hlen⟩, hhead⟩, hall⟩
    -- Key characters are ASCII, so bytes are characters.
    rw [byteLen_eq_length fun c hc => (hall c hc).le] at hlen
    cases part with
    | nil =>
        cases hhead
    | cons c rest =>
        exact ⟨c, rest, rfl, hhead, fun c' hc' => hall c' (List.mem_cons_of_mem _ hc'),
          Nat.le_of_succ_le_succ hlen⟩
  · rintro ⟨c, rest, rfl, hc, hrest, hlen⟩
    have hall : ∀ c' ∈ c :: rest, KeyChar c' := List.forall_mem_cons.2 ⟨hfirst c hc, hrest⟩
    rw [byteLen_eq_length fun c' hc' => (hall c' hc').le, List.length_cons]
    exact ⟨⟨⟨by omega, by omega⟩, hc⟩, hall⟩

theorem keyChar_of_tenant {c : Char} (h : LcAlpha c ∨ Digit c) : KeyChar c :=
  h.imp_right Or.inl

theorem isTracestateKey_iff {key : List Char} : isTracestateKey key = true ↔ IsKey key := by
  have hlower : ∀ c, isAsciiLowercase c = true ↔ LcAlpha c := by simp [isAsciiLowercase, LcAlpha]
  have htenant : ∀ c, (isAsciiLowercase c || isAsciiDigit c) = true ↔ LcAlpha c ∨ Digit c := by
    simp [isAsciiLowercase, isAsciiDigit, LcAlpha, Digit]
  have hsystemPart := @isKeyPart_iff 13 isAsciiLowercase
  have hsimplePart := @isKeyPart_iff 255 isAsciiLowercase
  have htenantPart := @isKeyPart_iff 240 fun c => isAsciiLowercase c || isAsciiDigit c
  simp only [hlower, htenant] at hsystemPart hsimplePart htenantPart
  unfold isTracestateKey
  constructor
  · intro h
    split at h
    · rename_i tenant vendor hsplit
      -- An `@` divides the key into a tenant and a system.
      rcases splitOnce_eq_some.1 hsplit with ⟨rfl, -⟩
      rw [Bool.and_eq_true, htenantPart fun c => keyChar_of_tenant, hsystemPart fun c => .inl]
        at h
      rcases h with ⟨⟨first, rest, rfl, hfirst, hrest, hlen⟩, systemFirst, system, rfl, hsystemFirst,
        hsystem, hsystemLen⟩
      exact .multiTenant first rest hfirst hrest hlen systemFirst system hsystemFirst hsystem hsystemLen
    · rw [hsimplePart fun c => .inl] at h
      rcases h with ⟨first, rest, rfl, hfirst, hrest, hlen⟩
      exact .simple first rest hfirst hrest hlen
  · intro h
    cases h with
    | simple first rest hfirst hrest hlen =>
        -- A simple key has no `@` to be split at.
        have hat : '@' ∉ first :: rest := fun hmem =>
          (List.forall_mem_cons.2 ⟨.inl hfirst, hrest⟩ '@' hmem : KeyChar '@').ne.1 rfl
        rw [splitOnce_eq_none.2 hat]
        exact (hsimplePart fun c => .inl).2 ⟨first, rest, rfl, hfirst, hrest, hlen⟩
    | multiTenant first tenant hfirst htenant htenantLen systemFirst system hsystemFirst hsystem
        hsystemLen =>
        have hat : '@' ∉ first :: tenant := fun hmem =>
          (List.forall_mem_cons.2 ⟨keyChar_of_tenant hfirst, htenant⟩ '@' hmem : KeyChar '@').ne.1 rfl
        rw [splitOnce_append _ hat]
        rw [Bool.and_eq_true, htenantPart fun c => keyChar_of_tenant, hsystemPart fun c => .inl]
        exact ⟨⟨first, tenant, rfl, hfirst, htenant, htenantLen⟩, systemFirst, system, rfl,
          hsystemFirst, hsystem, hsystemLen⟩

theorem valueChar_iff {c : Char} :
    ((' ' ≤ c && c ≤ '+') || ('-' ≤ c && c ≤ '<') || ('>' ≤ c && c ≤ '~')) = true ↔ ValueChar c := by
  have hle : ∀ a b : Char, a ≤ b ↔ a.toNat ≤ b.toNat := fun _ _ => UInt32.le_iff_toNat_le
  have hne : ∀ b : Char, c ≠ b ↔ c.toNat ≠ b.toNat := fun _ => not_congr Char.toNat_inj.symm
  simp only [Bool.or_eq_true, Bool.and_eq_true, decide_eq_true_eq, ValueChar, hle, hne]
  -- comma and equals sign are the two gaps of the range
  simp only [show ' '.toNat = 32 from rfl, show '+'.toNat = 43 from rfl, show ','.toNat = 44 from rfl,
    show '-'.toNat = 45 from rfl, show '<'.toNat = 60 from rfl, show '='.toNat = 61 from rfl,
    show '>'.toNat = 62 from rfl, show '~'.toNat = 126 from rfl]
  omega

theorem isTracestateValue_iff {value : List Char} :
    isTracestateValue value = true ↔
      value ≠ [] ∧ value.length ≤ 256 ∧ ∀ c ∈ value, ValueChar c := by
  unfold isTracestateValue
  simp only [Bool.and_eq_true, decide_eq_true_eq, List.all_eq_true, valueChar_iff]
  constructor
  · rintro ⟨⟨hpos, hlen⟩, hall⟩
    rw [byteLen_eq_length fun c hc => (hall c hc).2.1] at hpos hlen
    exact ⟨List.ne_nil_of_length_pos hpos, hlen, hall⟩
  · rintro ⟨hne, hlen, hall⟩
    rw [byteLen_eq_length fun c hc => (hall c hc).2.1]
    exact ⟨⟨List.length_pos_iff.2 hne, hlen⟩, hall⟩

theorem IsKey.equals_not_mem {key : List Char} (h : IsKey key) : '=' ∉ key := by
  have hchars : ∀ {part : List Char}, (∀ c ∈ part, KeyChar c) → '=' ∉ part := fun hpart hmem =>
    (hpart '=' hmem).ne.2 rfl
  cases h with
  | simple first rest hfirst hrest hlen =>
      exact hchars (List.forall_mem_cons.2 ⟨.inl hfirst, hrest⟩)
  | multiTenant first tenant hfirst htenant htenantLen systemFirst system hsystemFirst hsystem
      hsystemLen =>
      have hleft := hchars (List.forall_mem_cons.2 ⟨keyChar_of_tenant hfirst, htenant⟩)
      have hright := hchars (List.forall_mem_cons.2 ⟨Or.inl hsystemFirst, hsystem⟩)
      intro hmem
      rcases List.mem_append.1 hmem with hmem | hmem
      · exact hleft hmem
      · rcases List.mem_cons.1 hmem with hat | hmem
        · exact absurd hat (by decide)
        · exact hright hmem

/-- A member without blanks at its end has a key exactly when it follows the grammar: the value's last
character is the member's. -/
theorem memberKey_eq_some {member key : List Char} (htrim : trim isBlank member = member) :
    memberKey member = some key ↔ IsListMember member key := by
  unfold memberKey
  rw [Option.bind_eq_some_iff]
  constructor
  · rintro ⟨⟨key', entry⟩, hsplit, hkey⟩
    rcases splitOnce_eq_some.1 hsplit with ⟨rfl, -⟩
    simp only at hkey
    split at hkey
    · rename_i hvalid
      cases hkey
      rw [Bool.and_eq_true, isTracestateKey_iff, isTracestateValue_iff] at hvalid
      rcases hvalid with ⟨hkey, hne, hshort, hchars⟩
      refine ⟨entry, rfl, hkey, hne, hshort, hchars, fun hlast => ?_⟩
      -- A value that ended in a blank would end the member in one, and that was trimmed.
      have hmember : (key ++ '=' :: entry).getLast? = some ' ' := by
        rw [List.getLast?_append_cons, List.getLast?_cons_of_ne_nil hne, hlast]
      exact getLast?_of_trim htrim hmember rfl
    · cases hkey
  · rintro ⟨value, rfl, hkey, hvalue⟩
    refine ⟨(key, value), splitOnce_append value hkey.equals_not_mem, if_pos ?_⟩
    rw [Bool.and_eq_true, isTracestateKey_iff, isTracestateValue_iff]
    exact ⟨hkey, hvalue.ne_nil, hvalue.short, hvalue.chars⟩

/-- The members of a list that hold something, without the blanks around them. -/
def listMembers (s : String) : List (List Char) :=
  fields ',' isBlank s.toList

/-- No two members have one key. -/
def DistinctKeys (members : List (List Char)) : Prop :=
  members.Pairwise fun member member' => ∀ key, IsListMember member key → ¬ IsListMember member' key

theorem trim_of_mem_listMembers {s : String} {member : List Char} (h : member ∈ listMembers s) :
    trim isBlank member = member :=
  (isField_of_mem_fields h).trimmed

theorem scans_iff (s : String) :
    Scans (listMembers s) [] ↔
      (∀ member ∈ listMembers s, ∃ key, IsListMember member key) ∧ DistinctKeys (listMembers s) := by
  have hkeys : ∀ member ∈ listMembers s, ∀ key,
      memberKey member = some key ↔ IsListMember member key := fun member hmember key =>
    memberKey_eq_some (trim_of_mem_listMembers hmember)
  constructor
  · intro h
    refine ⟨fun member hmember => ?_, ?_⟩
    · rcases Option.isSome_iff_exists.1 (h.valid member hmember) with ⟨key, hkey⟩
      exact ⟨key, (hkeys member hmember key).1 hkey⟩
    -- Distinct members of the scan are members with different keys.
    · refine (List.pairwise_map.1 h.distinct).imp_of_mem fun hmember hmember' hne key hkey hkey' => ?_
      exact hne (((hkeys _ hmember key).2 hkey).trans ((hkeys _ hmember' key).2 hkey').symm)
  · rintro ⟨hvalid, hdistinct⟩
    refine
      { valid := fun member hmember => ?_
        distinct := ?_
        fresh := fun _ _ _ hkey => absurd hkey List.not_mem_nil }
    · rcases hvalid member hmember with ⟨key, hkey⟩
      rw [(hkeys member hmember key).2 hkey]
      rfl
    · refine List.pairwise_map.2 (hdistinct.imp_of_mem fun hmember hmember' hfree heq => ?_)
      rcases hvalid _ hmember with ⟨key, hkey⟩
      rw [(hkeys _ hmember key).2 hkey] at heq
      exact hfree key hkey ((hkeys _ hmember' key).1 heq.symm)

theorem mem_listMembers {s : String} {member : List Char} :
    member ∈ listMembers s ↔
      ∃ piece ∈ s.toList.splitOn ',', trim isBlank piece = member ∧ member ≠ [] := by
  simp only [listMembers, fields, nonempty, List.mem_filter, List.mem_map, Bool.not_eq_true',
    List.isEmpty_eq_false_iff]
  constructor
  · rintro ⟨⟨piece, hpiece, rfl⟩, hne⟩
    exact ⟨piece, hpiece, rfl, hne⟩
  · rintro ⟨piece, hpiece, rfl, hne⟩
    exact ⟨⟨piece, hpiece, rfl⟩, hne⟩

theorem tracestate_iff {s out : String} :
    sanitizedTracestate s = some out ↔
      byteLen s.toList ≤ 2048 ∧
      (∀ piece ∈ s.toList.splitOn ',', trim isBlank piece = [] ∨
        ∃ key, IsListMember (trim isBlank piece) key) ∧
      DistinctKeys (listMembers s) ∧
      (∃ piece ∈ s.toList.splitOn ',', trim isBlank piece ≠ []) ∧
      out = String.ofList ([','].intercalate ((listMembers s).take 32)) := by
  rw [sanitizedTracestate_eq_some]
  change byteLen s.toList ≤ 2048 ∧ Scans (listMembers s) [] ∧ ((listMembers s).take 32 ≠ [] ∧ _) ↔ _
  rw [scans_iff]
  -- Members are the pieces that are not blank.
  have hpieces : (∀ member ∈ listMembers s, ∃ key, IsListMember member key) ↔
      ∀ piece ∈ s.toList.splitOn ',', trim isBlank piece = [] ∨
        ∃ key, IsListMember (trim isBlank piece) key := by
    constructor
    · intro h piece hpiece
      by_cases hempty : trim isBlank piece = []
      · exact .inl hempty
      · exact .inr (h _ (mem_listMembers.2 ⟨piece, hpiece, rfl, hempty⟩))
    · intro h member hmember
      rcases mem_listMembers.1 hmember with ⟨piece, hpiece, rfl, hne⟩
      exact (h piece hpiece).resolve_left hne
  have hsome : (listMembers s).take 32 ≠ [] ↔
      ∃ piece ∈ s.toList.splitOn ',', trim isBlank piece ≠ [] := by
    rw [Ne, List.take_eq_nil_iff, not_or]
    constructor
    · rintro ⟨-, hmembers⟩
      rcases List.exists_mem_of_ne_nil _ hmembers with ⟨member, hmember⟩
      rcases mem_listMembers.1 hmember with ⟨piece, hpiece, rfl, hne⟩
      exact ⟨piece, hpiece, hne⟩
    · rintro ⟨piece, hpiece, hne⟩
      exact ⟨by decide, List.ne_nil_of_mem (mem_listMembers.2 ⟨piece, hpiece, rfl, hne⟩)⟩
  rw [hpieces, hsome, and_assoc]
  rfl

/-! ## Contexts on their way -/

/-- `RawTraceContext`: the two parts before anything is checked. -/
structure RawTraceContext where
  traceparent : String
  tracestate : Option String

def deserialize (raw : RawTraceContext) : Except String TraceContext :=
  okOr (fromParts (some raw.traceparent) raw.tracestate)
    "traceparent is not a W3C trace context kafkaman can forward"

/-- `optional_trace_context::deserialize`: a row drops what no longer parses. -/
def deserializeOptional (raw : Option RawTraceContext) : Option TraceContext :=
  raw.bind fun raw => fromParts (some raw.traceparent) raw.tracestate

/-- The ways to a context from outside. -/
inductive Produced (context : TraceContext) : Prop
  | fromParts (traceparent tracestate : Option String)
      (h : TraceContext.fromParts traceparent tracestate = some context)
  | deserialized (raw : RawTraceContext) (h : deserialize raw = .ok context)
  | deserializedOptional (raw : Option RawTraceContext) (h : deserializeOptional raw = some context)

theorem Produced.exists_parts {context : TraceContext} (h : Produced context) :
    ∃ traceparent tracestate, TraceContext.fromParts traceparent tracestate = some context := by
  cases h with
  | fromParts traceparent tracestate h =>
      exact ⟨traceparent, tracestate, h⟩
  | deserialized raw h =>
      exact ⟨_, _, okOr_eq_ok.1 h⟩
  | deserializedOptional raw h =>
      rcases Option.bind_eq_some_iff.1 h with ⟨raw, -, hparts⟩
      exact ⟨_, _, hparts⟩

/-- Stored in two columns or sent in two headers, and read again. -/
def hop (context : Option TraceContext) : Option TraceContext :=
  fromParts (context.map TraceContext.traceparent) (context.bind TraceContext.tracestate)

theorem hop_iterate {context : TraceContext} (h : Produced context) (hops : Nat) :
    hop^[hops] (some context) = some context := by
  induction hops with
  | zero =>
      rfl
  | succ hops ih =>
      rw [Function.iterate_succ_apply', ih]
      refine fromParts_of_produced fun c hc => ?_
      cases hc
      exact h.exists_parts

/-- Which lists are carried on and how they are spelled; that the spelling is final; and that a
context never changes once it has been let in. -/
theorem tracestate_canonical :
    (∀ s out : String, sanitizedTracestate s = some out ↔
      byteLen s.toList ≤ 2048 ∧
      (∀ piece ∈ s.toList.splitOn ',', trim isBlank piece = [] ∨
        ∃ key, IsListMember (trim isBlank piece) key) ∧
      DistinctKeys (listMembers s) ∧
      (∃ piece ∈ s.toList.splitOn ',', trim isBlank piece ≠ []) ∧
      out = String.ofList ([','].intercalate ((listMembers s).take 32))) ∧
    (∀ s out : String, sanitizedTracestate s = some out → sanitizedTracestate out = some out) ∧
    (∀ context : TraceContext, Produced context →
      fromParts (some context.traceparent) context.tracestate = some context ∧
      ∀ hops, hop^[hops] (some context) = some context) := by
  refine ⟨fun s out => tracestate_iff, fun s out => sanitizedTracestate_of_sanitizedTracestate,
    fun context h => ⟨?_, hop_iterate h⟩⟩
  rcases h.exists_parts with ⟨traceparent, tracestate, hparts⟩
  exact fromParts_of_fromParts hparts

end TraceContext
end Kafkaman
