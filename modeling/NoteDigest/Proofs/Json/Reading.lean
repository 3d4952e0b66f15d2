import Mathlib.Data.List.Infix
import NoteDigest.Json.Reader
import NoteDigest.Proofs.Text.Trim

/-! # Reading — what a reading step leaves, and why one fails

    Every reading step either leaves an ending of its text or fails for a reason that can be
    seen in the text (`Steps`).  A text is too deep only if it opens more lists and objects
    than there is room for, and an integer is too long only if the text has as many decimal
    digits in a row (`accounts_of_parse`).

    In the other direction, a plain name between quotes reads as itself
    (`stringRest_append`), a word for a truth value as the value (`value_bool`), and an object
    as its members do (`value_object`), of which one name has one only
    (`lookup_putMember`). -/

namespace NoteDigest.Json

variable {α β : Type} {room fuel : Nat} {c : Char} {text rest name : Text} {fault : ReadFault}

/-! ## Reasons to fail -/

/-- The number of lists and objects that a text opens, those in its strings included. -/
def openings (text : Text) : Nat :=
  text.countP fun c => c == '[' || c == '{'

/-- The text has more decimal digits in a row than an integer may have. -/
def HasLongInteger (text : Text) : Prop :=
  ∃ digits, digits <:+: text ∧ (∀ c ∈ digits, c.isDigit = true)
    ∧ maxIntegerDigits < digits.length

/-- The text accounts for a fault, when `room` more lists and objects may be open. -/
def Accounts (room : Nat) (text : Text) : ReadFault → Prop
  | .malformed => True
  | .integerTooLong => HasLongInteger text
  | .tooDeep => room < openings text

theorem openings_le_of_isSuffix (h : rest <:+ text) : openings rest ≤ openings text :=
  h.sublist.countP_le

/-- What an ending accounts for, the whole text does. -/
theorem Accounts.of_isSuffix (hsuffix : rest <:+ text) (h : Accounts room rest fault) :
    Accounts room text fault := by
  cases fault with
  | malformed => trivial
  | integerTooLong =>
      obtain ⟨digits, hdigits, hall, hlong⟩ := h
      exact ⟨digits, hdigits.trans hsuffix.isInfix, hall, hlong⟩
  | tooDeep => exact Nat.lt_of_lt_of_le h (openings_le_of_isSuffix hsuffix)

/-- A list or an object that is opened takes up room. -/
theorem Accounts.opening (hopens : (c == '[' || c == '{') = true)
    (h : Accounts (room - 1) rest fault) : Accounts room (c :: rest) fault := by
  cases fault with
  | malformed => trivial
  | integerTooLong =>
      have hrest : Accounts room rest .integerTooLong := h
      exact hrest.of_isSuffix (List.suffix_cons c rest)
  | tooDeep =>
      have hcount : openings (c :: rest) = openings rest + 1 :=
        List.countP_cons_of_pos hopens
      show room < openings (c :: rest)
      have hroom : room - 1 < openings rest := h
      omega

/-! ## Reading steps -/

/-- A reading step leaves an ending of the text, or the text accounts for its fault. -/
def Steps (room : Nat) (text : Text) : Except ReadFault (α × Text) → Prop
  | .ok (_, rest) => rest <:+ text
  | .error fault => Accounts room text fault

theorem steps_malformed (room : Nat) (text : Text) :
    Steps room text (.error .malformed : Except ReadFault (α × Text)) :=
  trivial

theorem Steps.of_isSuffix {step : Except ReadFault (α × Text)} (hsuffix : rest <:+ text)
    (h : Steps room rest step) : Steps room text step := by
  cases step with
  | ok left => exact List.IsSuffix.trans h hsuffix
  | error fault => exact Accounts.of_isSuffix hsuffix h

theorem Steps.cons {step : Except ReadFault (α × Text)} (c : Char) (h : Steps room rest step) :
    Steps room (c :: rest) step :=
  h.of_isSuffix (List.suffix_cons c rest)

theorem Steps.opening {step : Except ReadFault (α × Text)}
    (hopens : (c == '[' || c == '{') = true) (h : Steps (room - 1) rest step) :
    Steps room (c :: rest) step := by
  cases step with
  | ok left => exact List.IsSuffix.trans h (List.suffix_cons c rest)
  | error fault => exact Accounts.opening hopens h

/-- **ONE AFTER THE OTHER**: the second step reads what the first has left. -/
theorem Steps.bind {step : Except ReadFault (α × Text)}
    {next : α × Text → Except ReadFault (β × Text)} (h : Steps room text step)
    (hnext : ∀ found rest, Steps room rest (next (found, rest))) :
    Steps room text (step >>= next) := by
  cases step with
  | ok left => exact (hnext left.1 left.2).of_isSuffix h
  | error fault => exact h

/-- A step that gives something and leaves the text as it is. -/
theorem steps_pure (room : Nat) (text : Text) (found : α) :
    Steps room text (pure (found, text) : Except ReadFault (α × Text)) :=
  List.suffix_refl text

theorem skipSpace_isSuffix (text : Text) : skipSpace text <:+ text :=
  List.dropWhile_suffix _

theorem isSuffix_of_skipSpace (h : skipSpace text = c :: rest) : rest <:+ text := by
  have hsuffix := skipSpace_isSuffix text
  rw [h] at hsuffix
  exact (List.suffix_cons c rest).trans hsuffix

/-! ## Strings -/

theorem steps_stringUnits (room : Nat) (text : Text) : Steps room text (stringUnits text) := by
  fun_induction stringUnits text with
  | case1 => exact steps_malformed room _
  | case2 rest => exact List.suffix_cons _ _
  | case3 a b c d rest n hnumber ih =>
      have hsuffix : rest <:+ '\\' :: 'u' :: a :: b :: c :: d :: rest :=
        ⟨['\\', 'u', a, b, c, d], rfl⟩
      refine Steps.of_isSuffix hsuffix ?_
      exact ih.bind fun _ rest => steps_pure room rest _
  | case4 => exact steps_malformed room _
  | case5 c rest _ e hescape ih =>
      exact Steps.cons _ (Steps.cons _ (ih.bind fun _ rest => steps_pure room rest _))
  | case6 => exact steps_malformed room _
  | case7 => exact steps_malformed room _
  | case8 c rest _ _ _ _ ih => exact Steps.cons _ (ih.bind fun _ rest => steps_pure room rest _)

theorem steps_stringRest (room : Nat) (text : Text) : Steps room text (stringRest text) :=
  (steps_stringUnits room text).bind fun _ rest => steps_pure room rest _

/-! ## Numbers -/

theorem fractionDigits_isSuffix (text : Text) : (fractionDigits text).2 <:+ text := by
  unfold fractionDigits
  split
  · rename_i rest
    dsimp only
    split
    · exact List.suffix_refl _
    · exact (List.dropWhile_suffix _).trans (List.suffix_cons _ _)
  · exact List.suffix_refl _

/-- What is left behind an exponent, whatever its sign. -/
theorem isSuffix_of_exponent? {power : Int} (h : exponent? text = some (power, rest)) :
    rest <:+ text := by
  unfold exponent? at h
  split at h
  · rename_i e behind
    split at h
    · -- the digits stand behind a sign or behind the letter
      have hdigits : ∀ digits, digits <:+ behind →
          digits.dropWhile Char.isDigit = rest → rest <:+ e :: behind := by
        rintro digits hdigits rfl
        exact ((List.dropWhile_suffix _).trans hdigits).trans (List.suffix_cons e behind)
      dsimp only at h
      split at h
      · rename_i digits
        split at h
        · cases h
        · exact hdigits digits (List.suffix_cons _ _) (Prod.mk.inj (Option.some.inj h)).2
      · rename_i digits
        split at h
        · cases h
        · exact hdigits digits (List.suffix_cons _ _) (Prod.mk.inj (Option.some.inj h)).2
      · split at h
        · cases h
        · exact hdigits behind (List.suffix_refl _) (Prod.mk.inj (Option.some.inj h)).2
    · cases h
  · cases h

/-- Behind an exponent, or behind none. -/
theorem exponent?_isSuffix (text : Text) : ((exponent? text).getD (0, text)).2 <:+ text := by
  cases hpower : exponent? text with
  | none => exact List.suffix_refl text
  | some found => exact isSuffix_of_exponent? hpower

/-- The digits of a number in front of its point: a zero alone, or all there are. -/
def wholeDigits (text : Text) : Text :=
  match text with
  | '0' :: _ => ['0']
  | _ => text.takeWhile Char.isDigit

theorem wholeDigits_isPrefix (text : Text) : wholeDigits text <+: text := by
  unfold wholeDigits
  split
  · exact ⟨_, rfl⟩
  · exact List.takeWhile_prefix _

theorem isDigit_of_mem_wholeDigits (h : c ∈ wholeDigits text) : c.isDigit = true := by
  unfold wholeDigits at h
  split at h
  · rw [List.mem_singleton.mp h]
    rfl
  · exact List.all_eq_true.mp List.all_takeWhile c h

/-- **A NUMBER**: an integer is too long only if its digits stand in the text. -/
theorem steps_unsignedNumber (room : Nat) (negative : Bool) (text : Text) :
    Steps room text (unsignedNumber negative text) := by
  have hall : ∀ c, c ∈ wholeDigits text → c.isDigit = true := fun _ => isDigit_of_mem_wholeDigits
  have hfront := wholeDigits_isPrefix text
  unfold unsignedNumber
  extract_lets whole
  change ∀ c, c ∈ whole → c.isDigit = true at hall
  change whole <+: text at hfront
  clear_value whole
  split
  · exact steps_malformed room text
  · have hpoint := (fractionDigits_isSuffix _).trans (List.drop_suffix whole.length text)
    split
    rename_i decimals afterPoint hfraction
    rw [hfraction] at hpoint
    extract_lets power
    split
    · split
      · rename_i hlong
        exact ⟨whole, hfront.isInfix, hall, hlong⟩
      · exact hpoint
    · have hpower := exponent?_isSuffix afterPoint
      exact hpower.trans hpoint

/-! ## Values -/

theorem steps_scalar (room : Nat) (text : Text) : Steps room text (scalar text) := by
  unfold scalar
  split
  · rename_i found hfound
    obtain ⟨⟨word, value⟩, -, hword⟩ := List.exists_of_findSome?_eq_some hfound
    obtain ⟨rest, hrest, rfl⟩ := Option.map_eq_some_iff.mp hword
    rw [Text.after?_eq_some_iff.mp hrest]
    exact List.suffix_append word rest
  · split
    · exact (steps_unsignedNumber room true _).cons '-'
    · exact steps_unsignedNumber room false _

/-- **VALUES, ITEMS AND MEMBERS** are read in steps: by induction on the fuel, as each of the
    three readers calls the others with less of it. -/
theorem steps_readers (fuel : Nat) :
    (∀ room text, Steps room text (value fuel room text))
      ∧ (∀ room text, Steps room text (elements fuel room text))
      ∧ ∀ room before text, Steps room text (members fuel room before text) := by
  induction fuel with
  | zero =>
      refine ⟨fun room text => ?_, fun room text => ?_, fun room before text => ?_⟩
      · rw [value]
        exact steps_malformed room text
      · rw [elements]
        exact steps_malformed room text
      · rw [members]
        exact steps_malformed room text
  | succ fuel ih =>
      obtain ⟨hvalue, helements, hmembers⟩ := ih
      refine ⟨fun room text => ?_, fun room text => ?_, fun room before text => ?_⟩
      · rw [value.eq_def]
        dsimp only
        split
        · exact Steps.cons _ ((steps_stringRest room _).bind fun _ rest => steps_pure room rest _)
        · -- a list takes up room
          rename_i rest
          split
          · rename_i hroom
            rw [hroom]
            exact List.countP_pos_iff.mpr ⟨'[', List.mem_cons_self, rfl⟩
          · refine Steps.opening rfl ?_
            split
            · rename_i hclosed
              exact isSuffix_of_skipSpace hclosed
            · refine Steps.of_isSuffix (skipSpace_isSuffix rest) ?_
              exact (helements _ _).bind fun _ rest => steps_pure _ rest _
        · -- and so does an object
          rename_i rest
          split
          · rename_i hroom
            rw [hroom]
            exact List.countP_pos_iff.mpr ⟨'{', List.mem_cons_self, rfl⟩
          · refine Steps.opening rfl ?_
            split
            · rename_i hclosed
              exact isSuffix_of_skipSpace hclosed
            · refine Steps.of_isSuffix (skipSpace_isSuffix rest) ?_
              exact (hmembers _ _ _).bind fun _ rest => steps_pure _ rest _
        · exact steps_scalar room _
      · rw [elements]
        refine (hvalue room text).bind fun item rest => ?_
        dsimp only
        split
        · rename_i hclosed
          exact isSuffix_of_skipSpace hclosed
        · rename_i behind hcomma
          refine Steps.of_isSuffix (isSuffix_of_skipSpace hcomma) ?_
          refine Steps.of_isSuffix (skipSpace_isSuffix behind) ?_
          exact (helements room _).bind fun _ rest => steps_pure room rest _
        · exact steps_malformed room _
      · rw [members.eq_def]
        dsimp only
        split
        · refine Steps.cons _ ((steps_stringRest room _).bind fun name rest => ?_)
          dsimp only
          split
          · rename_i behind hcolon
            refine Steps.of_isSuffix (isSuffix_of_skipSpace hcolon) ?_
            refine Steps.of_isSuffix (skipSpace_isSuffix behind) ?_
            refine (hvalue room _).bind fun item rest => ?_
            dsimp only
            split
            · rename_i hclosed
              exact isSuffix_of_skipSpace hclosed
            · rename_i behind hcomma
              refine Steps.of_isSuffix (isSuffix_of_skipSpace hcomma) ?_
              exact Steps.of_isSuffix (skipSpace_isSuffix behind) (hmembers room _ _)
            · exact steps_malformed room _
          · exact steps_malformed room _
        · exact steps_malformed room _

/-- **WHY A TEXT CANNOT BE READ**: a fault other than a malformed text is accounted for. -/
theorem accounts_of_parse (h : parse text = .error fault) : Accounts maxDepth text fault := by
  have hvalue := (steps_readers (2 * text.length + 2)).1 maxDepth (skipSpace text)
  rw [parse] at h
  cases hread : value (2 * text.length + 2) maxDepth (skipSpace text) with
  | error cause =>
      rw [hread] at h hvalue
      obtain rfl : cause = fault := Except.error.inj h
      exact Accounts.of_isSuffix (skipSpace_isSuffix text) hvalue
  | ok found =>
      rw [hread] at h
      simp only [bind, Except.bind] at h
      split at h
      · cases h
      · rw [← Except.error.inj h]
        trivial

/-! ## What plain writing reads as -/

/-- The characters of a text stand for themselves between quotes. -/
def IsPlain (text : Text) : Prop :=
  ∀ c ∈ text, 0x20 ≤ c.toNat ∧ c.toNat < 0xD800 ∧ c ≠ '"' ∧ c ≠ '\\'

instance (text : Text) : Decidable (IsPlain text) :=
  List.decidableBAll _ text

theorem stringUnits_append (rest : Text) (h : IsPlain name) :
    stringUnits (name ++ '"' :: rest) = .ok (name.map Char.toNat, rest) := by
  induction name with
  | nil => rfl
  | cons c name ih =>
      obtain ⟨⟨hlow, -, hquote, hescape⟩, hname⟩ := List.forall_mem_cons.mp h
      have hplain : ¬ (decide (c.toNat < 0x20) || c == '\\') = true := by
        simp [hescape, Nat.not_lt.mpr hlow]
      rw [List.cons_append, stringUnits.eq_def]
      split
      · rename_i hnil
        cases hnil
      · rename_i hcons
        exact absurd (List.cons.inj hcons).1 hquote
      · rename_i hcons
        exact absurd (List.cons.inj hcons).1 hescape
      · rename_i hcons
        exact absurd (List.cons.inj hcons).1 hescape
      · rename_i hcons
        obtain ⟨rfl, rfl⟩ := List.cons.inj hcons
        rw [if_neg hplain, ih hname]
        rfl

theorem loneUnit_toNat (h : c.toNat < 0xD800) : loneUnit c.toNat = c := by
  rw [loneUnit, if_neg (by simp [Nat.not_le.mpr h]), Char.ofNat_toNat]

/-- Below the halves of pairs there is nothing to join. -/
theorem joinUnits_map_toNat (h : IsPlain text) : joinUnits (text.map Char.toNat) = text := by
  induction text with
  | nil => rfl
  | cons c rest ih =>
      obtain ⟨⟨-, hc, -⟩, hrest⟩ := List.forall_mem_cons.mp h
      cases rest with
      | nil =>
          show [loneUnit c.toNat] = [c]
          rw [loneUnit_toNat hc]
      | cons next others =>
          have hsingle : ¬ (decide (0xD800 ≤ c.toNat) && decide (c.toNat ≤ 0xDBFF)
              && decide (0xDC00 ≤ next.toNat) && decide (next.toNat ≤ 0xDFFF)) = true := by
            simp [Nat.not_le.mpr hc]
          rw [List.map_cons, List.map_cons, joinUnits, if_neg hsingle, loneUnit_toNat hc,
            ← List.map_cons, ih hrest]

/-- **A PLAIN NAME** between quotes reads as itself. -/
theorem stringRest_append (rest : Text) (h : IsPlain name) :
    stringRest (name ++ '"' :: rest) = .ok (name, rest) := by
  rw [stringRest, stringUnits_append rest h]
  show Except.ok (joinUnits _, rest) = _
  rw [joinUnits_map_toNat h]

/-- **A WORD FOR A TRUTH VALUE** reads as the value. -/
theorem value_bool (fuel room : Nat) (truth : Bool) (rest : Text) :
    value (fuel + 1) room ((if truth then "true".toList else "false".toList) ++ rest)
      = .ok (.bool truth, rest) := by
  cases truth <;> rfl

/-- **AN OBJECT** is read as its members are, if it has any. -/
theorem value_object {body inside : Text} {found : List (Text × Json)}
    (hinside : skipSpace body = '"' :: inside)
    (hmembers : members fuel room [] ('"' :: inside) = .ok (found, rest)) :
    value (fuel + 1) (room + 1) ('{' :: body) = .ok (.object found, rest) := by
  rw [value.eq_def]
  simp only [hinside, Nat.add_sub_cancel, if_neg (Nat.succ_ne_zero room)]
  show (members fuel room [] ('"' :: inside) >>= fun read => pure (object read.1, read.2)) = _
  rw [hmembers]
  rfl

/-! ## Members -/

/-- **A MEMBER PUT IN** is found under its name, and all others are as they were. -/
theorem lookup_putMember (name key : Text) (item : Json) :
    ∀ members : List (Text × Json), (putMember name item members).lookup key
      = if key = name then some item else members.lookup key := by
  intro members
  induction members with
  | nil =>
      rw [putMember, List.lookup_cons]
      by_cases hkey : key = name
      · simp [hkey]
      · simp [hkey, beq_false_of_ne hkey]
  | cons member rest ih =>
      obtain ⟨known, old⟩ := member
      rw [putMember]
      by_cases hknown : known = name
      · rw [if_pos hknown, List.lookup_cons, List.lookup_cons, hknown]
        by_cases hkey : key = name
        · simp [hkey]
        · simp [hkey, beq_false_of_ne hkey]
      · rw [if_neg hknown, List.lookup_cons, List.lookup_cons, ih]
        by_cases hkey : key = name
        · simp [hkey, beq_false_of_ne (Ne.symm hknown)]
        · simp [hkey]

end NoteDigest.Json
