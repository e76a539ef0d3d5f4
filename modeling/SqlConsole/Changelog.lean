import SqlConsole.Value
/-!
# Changelogs

A streaming result is a list of changes.  `materialize` applies the changes to an empty table.
-/

namespace SqlConsole.Changelog

/-- A table after one more change.  An added row comes last; a row that is taken back is the first
one with the same values, and taking back a row that is not there changes nothing. -/
def change (table : List Row) (row : Row) : List Row :=
  if row.kind.adds then table ++ [.insert row.values]
  else table.eraseP fun r => sameValues r.values row.values

/-- The table that a list of changes leaves behind. -/
def materialize (changes : List Row) : List Row := changes.foldl change []

end SqlConsole.Changelog
