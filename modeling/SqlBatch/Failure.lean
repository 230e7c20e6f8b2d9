import SqlBatch.Files.Basic
import SqlBatch.Text.Decimal
/-!
# Failures

What makes a whole run fail.  A run that fails reports on no script at all.
-/

namespace SqlBatch

inductive Failure where
  | configMissing (path : Text)
  | configUnreadable (path : Text) (cause : FileError)
  | configInvalid (path : Text)
  | fileUnreadable (path : Text) (cause : FileError)
  | stdinUnreadable (fault : Utf8.Fault)
  /-- A file whose size is known before it is read. -/
  | fileTooLarge (path : Text) (size limit : Nat)
  | inputTooLarge (label : Text) (limit : Nat)
  deriving DecidableEq, Repr

namespace Failure

def limitMessage (limit : Nat) : Text :=
  "larger than the ".toList ++ Text.decimal limit ++ " byte limit".toList

def message : Failure → Text
  | .configMissing path => "config file ".toList ++ path ++ " does not exist".toList
  | .configUnreadable path cause =>
    "failed to read config file ".toList ++ path ++ ": ".toList ++ cause.message
  | .configInvalid path => "failed to parse config file ".toList ++ path
  | .fileUnreadable path cause =>
    "failed to read ".toList ++ path ++ ": ".toList ++ cause.message
  | .stdinUnreadable fault => "failed to read standard input: ".toList ++ fault.message
  | .fileTooLarge path size limit =>
    path ++ " is ".toList ++ Text.decimal size ++ " bytes, ".toList ++ limitMessage limit
  | .inputTooLarge label limit => label ++ " is ".toList ++ limitMessage limit

end Failure
end SqlBatch
