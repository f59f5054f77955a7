import NativeGlue.Mapping.Rule

/-!
# Rules from extensions

Installed extensions may contribute mapping rules. Their rules stand behind the built-in ones, so an
extension may replace the rule of a key or add one for a key that has none.
-/

namespace NativeGlue.Mapping

/-- What an extension turns out to offer. -/
inductive Offer where
  /-- Rules, at once or from a function that makes them. -/
  | rules (rs : List Rule)
  /-- Something that is no rules. -/
  | other
  /-- Nothing, since it cannot be loaded. -/
  | unloadable (reason : String)
  deriving Repr, Inhabited

/-- Why the rules of an extension cannot be used. -/
inductive ExtensionFault where
  | notRules (extension : String)
  | unloadable (extension reason : String)
  deriving DecidableEq, Repr, Inhabited

/-- The text of a fault. -/
def ExtensionFault.message : ExtensionFault → String
  | .notRules n => s!"Type rule entry point '{n}' must provide MappingRule instances"
  | .unloadable n r => s!"Failed to load type rule entry point '{n}': {r}"

/-- The rules of one extension. -/
def offeredRules (extension : String) : Offer → Except ExtensionFault (List Rule)
  | .rules rs => .ok rs
  | .other => .error (.notRules extension)
  | .unloadable reason => .error (.unloadable extension reason)

/-- The built-in rules and behind them those of the extensions, in order. -/
def rulesWith (extensions : List (String × Offer)) : Except ExtensionFault (List Rule) := do
  let contributed ← extensions.mapM fun (name, offer) => offeredRules name offer
  pure (standardRules ++ contributed.flatten)

end NativeGlue.Mapping
