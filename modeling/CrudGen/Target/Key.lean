import CrudGen.Text.Basic
import CrudGen.Text.Case

/-!
# Target keys

A target is a pair of a language and a framework. A key is written `language/framework` in messages
and `language-framework` as a directory; reading accepts both, and a colon.
-/

namespace CrudGen

/-- A language with a framework. -/
structure TargetKey where
  language : String
  framework : String
  deriving DecidableEq, Repr, Inhabited

namespace TargetKey

/-- Keys are ordered by language and then by framework. -/
instance : LT TargetKey where
  lt a b := a.language < b.language ∨ (a.language = b.language ∧ a.framework < b.framework)

instance : DecidableLT TargetKey := fun a b =>
  inferInstanceAs (Decidable (a.language < b.language ∨
    (a.language = b.language ∧ a.framework < b.framework)))

/-- A key as it is shown. -/
def text (k : TargetKey) : String :=
  k.language ++ "/" ++ k.framework

/-- The directory of a target in an archive. -/
def directory (k : TargetKey) : String :=
  k.language ++ "-" ++ k.framework

/-- The characters that may stand between the language and the framework. -/
def isSeparator (c : Char) : Bool :=
  c == '/' || c == '-' || c == ':'

/-- The key that a text is, in any letter case; the error is the text that was read. -/
def ofText (s : String) : Except String TargetKey :=
  let lower := Text.toLower (Text.trim s)
  match Text.splitOnce isSeparator lower with
  | some (language, framework) =>
    if language.isEmpty || framework.isEmpty then .error lower else .ok { language, framework }
  | none => .error lower

/-- What is said of a text that is no key. -/
def invalidMessage (lower : String) : String :=
  "target '" ++ lower ++ "' is not of the form language/framework"

end TargetKey

end CrudGen
