import SqlBatch.Scanner
import SqlBatch.Text.Lines
/-!
# Scripts

A whole script at once: its lines through a fresh scanner, then the end.
-/

namespace SqlBatch

def split (script : Text) : List Statement :=
  (({} : Scanner).feedAll (Text.lines script)).finish.ready

end SqlBatch
