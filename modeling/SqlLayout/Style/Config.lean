import SqlLayout.Style.Option
import SqlLayout.Toml.Document

/-!
# Styles in configuration files

A configuration file is a TOML document whose top-level fields set style options. Options that it
does not name keep their defaults, and fields that name no option are ignored.
-/

namespace SqlLayout.Style

def settingOf? : Toml.Value → Option Setting
  | .string text => some (.text text)
  | .integer value =>
      if 0 ≤ value && value < numberLimit then some (.number value.toNat) else none
  | .boolean value => some (.flag value)
  | _ => none

/-- The options that the fields of a document set; nothing if a field's value is of a wrong kind. -/
def settings? : Toml.Table → Option (List (StyleOption × Setting))
  | [] => some []
  | (key, value) :: rest =>
      match StyleOption.ofKey? key with
      | none => settings? rest
      | some option =>
          match settingOf? value, settings? rest with
          | some setting, some settings => some ((option, setting) :: settings)
          | _, _ => none

/-- The style that a configuration file describes. -/
def ofToml? (content : String) : Option Style := do
  let document ← Toml.parse? content
  setAll? {} (← settings? document)

end SqlLayout.Style
