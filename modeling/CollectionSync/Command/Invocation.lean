import CollectionSync.Command.Output

/-! What an operator asks the program to do. -/

namespace CollectionSync.Command

/-- What the settings are asked for. -/
inductive SettingsView where
  | display
  | check
  | location
  deriving DecidableEq

inductive Action where
  | status (collection : String)
  | cancel (collection : String)
  | watch (collection : String) (everyMillis : Nat)
  | recover (staleAfterSecs : Option UInt64)
  | settings (view : SettingsView)
  deriving DecidableEq

structure Invocation where
  form : Form
  settingsPath : Option String
  action : Action
  deriving DecidableEq

end CollectionSync.Command
