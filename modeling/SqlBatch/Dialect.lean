import SqlBatch.Text.Basic
/-!
# SQL dialects

The dialects that a statement may be checked in, and their names.
-/

namespace SqlBatch

inductive Dialect where
  | mysql
  | generic
  | postgres
  | sqlite
  | ansi
  | mssql
  deriving DecidableEq, Repr

namespace Dialect

def all : List Dialect := [.mysql, .generic, .postgres, .sqlite, .ansi, .mssql]

def name : Dialect → Text
  | .mysql => "mysql".toList
  | .generic => "generic".toList
  | .postgres => "postgres".toList
  | .sqlite => "sqlite".toList
  | .ansi => "ansi".toList
  | .mssql => "mssql".toList

def ofName? (name : Text) : Option Dialect := all.find? (·.name == name)

end Dialect
end SqlBatch
