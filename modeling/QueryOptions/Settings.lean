import QueryOptions.Strictness
import QueryOptions.Value.Text

/-!
Settings: the names under which options are looked up, the alias of the root, the ceiling of the
page size and the strictness. A form holds the settings as untyped values by name, as a caller gives
and overrides them; the settings proper are read off the form.
-/

namespace QueryOptions

structure Settings where
  filterKey : String := "$filter"
  orderbyKey : String := "$orderby"
  expandKey : String := "$expand"
  topKey : String := "$top"
  skipKey : String := "$skip"
  rootAlias : String := "entity"
  maxTop : Option Int := none
  strictness : Strictness := .lenient
  deriving DecidableEq, Repr, Inhabited

structure UnknownSetting where
  name : String
  deriving DecidableEq, Repr, Inhabited

namespace UnknownSetting

def message (failure : UnknownSetting) : String :=
  s!"ODataSettings.__init__() got an unexpected keyword argument '{failure.name}'"

end UnknownSetting

abbrev SettingsForm := List (String × Value)

namespace SettingsForm

def standard : SettingsForm := [
  ("filter_key", .text "$filter"),
  ("orderby_key", .text "$orderby"),
  ("expand_key", .text "$expand"),
  ("top_key", .text "$top"),
  ("skip_key", .text "$skip"),
  ("root_alias", .text "entity"),
  ("max_top", .null),
  ("strict", .boolean false)]

/-- The form with some values replaced. A form is never extended: the first unknown name fails. -/
def override (form : SettingsForm) (changes : List (String × Value)) :
    Except UnknownSetting SettingsForm :=
  match changes.find? fun change => (Value.lookup change.1 form).isNone with
  | some change => .error ⟨change.1⟩
  | none => .ok (form.map fun entry => (entry.1, (Value.lookup entry.1 changes).getD entry.2))

def textOf (form : SettingsForm) (name : String) : String :=
  ((Value.lookup name form).getD .null).plainText

def settings (form : SettingsForm) : Settings where
  filterKey := form.textOf "filter_key"
  orderbyKey := form.textOf "orderby_key"
  expandKey := form.textOf "expand_key"
  topKey := form.textOf "top_key"
  skipKey := form.textOf "skip_key"
  rootAlias := form.textOf "root_alias"
  maxTop := match Value.lookup "max_top" form with
    | some (.integer ceiling) => some ceiling
    | _ => none
  strictness := .ofBool ((Value.lookup "strict" form).getD .null).isTruthy

end SettingsForm

end QueryOptions
