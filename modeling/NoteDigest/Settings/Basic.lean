import NoteDigest.Fragment.Basic

/-! # Settings — the toggles that are kept between runs

    The first two are the layout of fragments.  The other two are kept but have no effect
    yet. -/

namespace NoteDigest

/-- The toggles. -/
structure Settings where
  includeLink : Bool := true
  includeCallout : Bool := true
  removeTags : Bool := false
  includeChildren : Bool := true
  deriving Repr, DecidableEq

/-- The toggles with the names they are stored under, in order. -/
def Settings.toggles (settings : Settings) : List (String × Bool) :=
  [("include_link", settings.includeLink), ("include_callout", settings.includeCallout),
   ("remove_tags", settings.removeTags), ("include_children", settings.includeChildren)]

/-- The layout that the settings ask for. -/
def Settings.layout (settings : Settings) : Layout :=
  ⟨settings.includeLink, settings.includeCallout⟩

/-- New values for some of the toggles. -/
structure SettingsPatch where
  includeLink : Option Bool := none
  includeCallout : Option Bool := none
  removeTags : Option Bool := none
  includeChildren : Option Bool := none
  deriving Repr, DecidableEq

/-- The settings with the values of a patch put in. -/
def Settings.apply (settings : Settings) (patch : SettingsPatch) : Settings :=
  { includeLink := patch.includeLink.getD settings.includeLink
    includeCallout := patch.includeCallout.getD settings.includeCallout
    removeTags := patch.removeTags.getD settings.removeTags
    includeChildren := patch.includeChildren.getD settings.includeChildren }

end NoteDigest
