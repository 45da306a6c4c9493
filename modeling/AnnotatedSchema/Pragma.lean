import AnnotatedSchema.Identifier
import AnnotatedSchema.Pragma.Keyword

/-! Settings of a database, and questions to it. -/

namespace AnnotatedSchema

/-- What a pragma does with its argument: it has none, or assigns it, or is called with it. -/
inductive Pragma.Argument where
  | none
  | value (t : Text)
  | call (t : Text)
  deriving DecidableEq

structure Pragma where
  schema : Option Text
  name : Text
  argument : Pragma.Argument
  deriving DecidableEq

namespace Pragma

def read (name : Text) : Pragma := ⟨none, name, .none⟩

def assign (name value : Text) : Pragma := ⟨none, name, .value value⟩

def call (name argument : Text) : Pragma := ⟨none, name, .call argument⟩

def onOff (enabled : Bool) : Text := if enabled then "ON" else "OFF"

def foreignKeys (enabled : Bool) : Pragma := assign "foreign_keys" (onOff enabled)

def journalMode (mode : JournalMode) : Pragma := assign "journal_mode" mode.keyword

def synchronous (level : Synchronous) : Pragma := assign "synchronous" level.keyword

def encoding (encoding : Encoding) : Pragma := assign "encoding" encoding.keyword

def autoVacuum (mode : AutoVacuum) : Pragma := assign "auto_vacuum" mode.keyword

def tempStore (store : TempStore) : Pragma := assign "temp_store" store.keyword

def lockingMode (mode : LockingMode) : Pragma := assign "locking_mode" mode.keyword

def secureDelete (enabled : Bool) : Pragma := assign "secure_delete" (onOff enabled)

def recursiveTriggers (enabled : Bool) : Pragma := assign "recursive_triggers" (onOff enabled)

def deferForeignKeys (enabled : Bool) : Pragma := assign "defer_foreign_keys" (onOff enabled)

def userVersion (version : Int64) : Pragma := assign "user_version" (Text.ofInt version.toInt)

def applicationId (id : Int32) : Pragma := assign "application_id" (Text.ofInt id.toInt)

def busyTimeout (milliseconds : UInt32) : Pragma :=
  assign "busy_timeout" (Text.ofNat milliseconds.toNat)

def cacheSize (size : Int64) : Pragma := assign "cache_size" (Text.ofInt size.toInt)

def pageSize (bytes : UInt32) : Pragma := assign "page_size" (Text.ofNat bytes.toNat)

def integrityCheck : Pragma := read "integrity_check"

def quickCheck : Pragma := read "quick_check"

def optimize : Pragma := read "optimize"

def tableInfo (table : Text) : Pragma := call "table_info" (identifier table)

def indexList (table : Text) : Pragma := call "index_list" (identifier table)

/-- A check of one table, or of all tables. -/
def foreignKeyCheck : Option Text → Pragma
  | none => read "foreign_key_check"
  | some table => call "foreign_key_check" (identifier table)

def walCheckpoint : Option WalCheckpoint → Pragma
  | none => read "wal_checkpoint"
  | some mode => call "wal_checkpoint" mode.keyword

inductive Call where
  | schema (name : Text)
  | argument (a : Argument)
  deriving DecidableEq

/-- The pragma after one more call. Of several arguments the last counts. -/
def apply (p : Pragma) : Call → Pragma
  | .schema name => { p with schema := some name }
  | .argument a => { p with argument := a }

def Argument.toSql : Argument → Text
  | none => []
  | value t => " = " ++ t
  | call t => t.parenthesized

def toSql (p : Pragma) : Text :=
  "PRAGMA " ++ qualifier p.schema ++ p.name ++ p.argument.toSql ++ ";"

end Pragma

end AnnotatedSchema
