import Mathlib.Data.List.Forall2
import NoteDigest.Console.Options

/-! # Arguments — options that are given by one argument each

    A long name alone gives an option without value; behind an equals sign a long name gives
    an option its value, whatever the value is (`gives_name`, `gives_value`).  Where every
    argument gives an option in this way, and none asks for help, the arguments come to what
    they give, in their order (`read_of_gives`). -/

namespace NoteDigest.Console

namespace Command

variable {κ : Type} {command : Command κ} {form : OptionForm κ} {argument value : Text}
  {arguments : List Text} {given : List (κ × Text)} {entry : κ × Text}

/-! ## One argument -/

/-- An argument that needs no other gives an option, with its value. -/
def Gives (command : Command κ) (argument : Text) (entry : κ × Text) : Prop :=
  ∃ form : OptionForm κ, form.key = entry.1
    ∧ (form.takesValue = true ∧ command.classify argument = .long form (some entry.2)
      ∨ form.takesValue = false ∧ entry.2 = [] ∧ command.classify argument = .long form none)

/-- The command takes an option by its long name. -/
structure Takes (command : Command κ) (form : OptionForm κ) : Prop where
  found : command.forms.find? (·.long == form.long) = some form
  dashes : ∃ c rest, form.long = '-' :: '-' :: c :: rest

theorem Takes.classify_append (h : command.Takes form) (tail : Text) :
    command.classify (form.long ++ tail) = command.classifyLong (form.long ++ tail) := by
  obtain ⟨c, rest, hlong⟩ := h.dashes
  rw [hlong]
  rfl

/-- **A LONG NAME** gives an option that takes no value. -/
theorem gives_name (h : command.Takes form) (hvalue : form.takesValue = false) :
    command.Gives form.long (form.key, []) := by
  refine ⟨form, rfl, .inr ⟨hvalue, rfl, ?_⟩⟩
  have hclassify := h.classify_append []
  rw [List.append_nil] at hclassify
  rw [hclassify, classifyLong, h.found]

/-- **AN EQUALS SIGN** behind a long name gives the option what follows, if no long name holds
    such a sign. -/
theorem gives_value (h : command.Takes form) (hvalue : form.takesValue = true)
    (hsigns : ∀ other ∈ command.forms, '=' ∉ other.long) (value : Text) :
    command.Gives (form.long ++ '=' :: value) (form.key, value) := by
  have hsign : '=' ∉ form.long := hsigns form (List.mem_of_find?_eq_some h.found)
  have hstop : ∀ c ∈ form.long, (c != '=') = true := by
    intro c hc
    exact bne_iff_ne.mpr fun heq => hsign (heq ▸ hc)
  have hname : (form.long ++ '=' :: value).takeWhile (· != '=') = form.long := by
    rw [List.takeWhile_append_of_pos hstop]
    simp
  have hrest : (form.long ++ '=' :: value).dropWhile (· != '=') = '=' :: value := by
    rw [List.dropWhile_append_of_pos hstop]
    rfl
  -- the whole argument is no name
  have hwhole : command.forms.find? (·.long == form.long ++ '=' :: value) = none := by
    rw [List.find?_eq_none]
    intro other hother heq
    refine hsigns other hother ?_
    rw [eq_of_beq heq]
    exact List.mem_append_right _ List.mem_cons_self
  refine ⟨form, rfl, .inl ⟨hvalue, ?_⟩⟩
  rw [h.classify_append, classifyLong]
  simp only [hwhole, hname, h.found, hrest]

/-! ## All arguments -/

/-- **ONE ARGUMENT MORE** puts what it gives before what the others ask for. -/
theorem words_cons_of_gives (h : command.Gives argument entry) (rest : List Text) :
    (command.words (argument :: rest)).any isAmbiguous = (command.words rest).any isAmbiguous
      ∧ command.events (command.words (argument :: rest))
        = .put entry.1 entry.2 :: command.events (command.words rest) := by
  obtain ⟨form, hkey, ⟨hvalue, hclassify⟩ | ⟨hvalue, hempty, hclassify⟩⟩ := h
  · rw [words, hclassify, ← hkey]
    exact ⟨rfl, by rw [events, if_pos hvalue]⟩
  · rw [words, hclassify, ← hkey, hempty]
    refine ⟨rfl, ?_⟩
    -- the next argument is not looked at, as no value is taken
    rw [events.eq_def]
    simp only [hvalue, Bool.false_eq_true, if_false]

/-- **ALL ARGUMENTS** put what they give, in their order. -/
theorem events_of_gives (h : List.Forall₂ command.Gives arguments given) :
    (command.words arguments).any isAmbiguous = false
      ∧ command.events (command.words arguments) = given.map fun entry => .put entry.1 entry.2 := by
  induction h with
  | nil => exact ⟨rfl, rfl⟩
  | cons hgives _ ih =>
      obtain ⟨hambiguous, hevents⟩ := words_cons_of_gives hgives _
      rw [hambiguous, hevents, ih.2]
      exact ⟨ih.1, rfl⟩

variable [DecidableEq κ]

/-- **THE READING** of such arguments is what they give, if none asks for help. -/
theorem read_of_gives (h : List.Forall₂ command.Gives arguments given)
    (hhelp : ∀ entry ∈ given, entry.1 ≠ command.help) :
    command.read arguments = .values given := by
  obtain ⟨hambiguous, hevents⟩ := events_of_gives h
  have hfinal : (command.events (command.words arguments)).find? command.isFinal = none := by
    rw [hevents, List.find?_eq_none]
    intro event hevent
    obtain ⟨entry, hentry, rfl⟩ := List.mem_map.mp hevent
    simpa [isFinal] using hhelp entry hentry
  have hstray : (command.events (command.words arguments)).contains .stray = false := by
    rw [hevents]
    simp
  have hvalues : (given.map fun entry => (Event.put entry.1 entry.2 : Event κ)).filterMap valueOf?
      = given := by
    rw [List.filterMap_map]
    exact List.filterMap_some
  rw [read]
  simp only [hambiguous, hfinal, hstray, Bool.false_eq_true, if_false]
  rw [hevents, hvalues]

end Command

/-! ## Values -/

section Values

variable {κ : Type} [DecidableEq κ] {given before behind : List (κ × Text)} {key : κ}
  {value : Text}

theorem lastValue?_eq_none (h : ∀ entry ∈ given, entry.1 ≠ key) : lastValue? given key = none := by
  rw [lastValue?, List.lookup_eq_none_iff]
  intro entry hentry
  exact bne_iff_ne.mpr fun heq => h entry (List.mem_reverse.mp hentry) heq.symm

/-- The value given last counts. -/
theorem lastValue?_append_cons (h : ∀ entry ∈ behind, entry.1 ≠ key) :
    lastValue? (before ++ (key, value) :: behind) key = some value := by
  have hbehind : behind.reverse.lookup key = none := lastValue?_eq_none h
  rw [lastValue?, List.reverse_append, List.reverse_cons, List.append_assoc, List.lookup_append,
    hbehind]
  simp

theorem isGiven_iff : isGiven given key = true ↔ ∃ entry ∈ given, entry.1 = key := by
  rw [isGiven, lastValue?, List.lookup_isSome_iff]
  constructor
  · rintro ⟨entry, hentry, hkey⟩
    exact ⟨entry, List.mem_reverse.mp hentry, (eq_of_beq hkey).symm⟩
  · rintro ⟨entry, hentry, rfl⟩
    exact ⟨entry, List.mem_reverse.mpr hentry, beq_self_eq_true _⟩

end Values

end NoteDigest.Console
