/-
PooledCollateral.Environment — the named variables a program is started with.

The value of a variable is a byte string. A variable whose bytes are no UTF-8
text counts as not set wherever a text is asked for.
-/

namespace PooledCollateral

/-- The variables that are set, with their bytes. -/
structure Environment where
  entries : List (String × ByteArray)

/-- The text of a variable, if it is set to one. -/
def Environment.text? (env : Environment) (name : String) : Option String :=
  (env.entries.lookup name).bind String.fromUTF8?

end PooledCollateral
