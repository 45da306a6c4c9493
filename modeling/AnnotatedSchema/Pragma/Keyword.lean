import AnnotatedSchema.Text.Basic

/-! The values that the settings of a database can have. -/

namespace AnnotatedSchema

/-- How the journal of a transaction is kept. -/
inductive JournalMode where
  | delete
  | truncate
  | persist
  | memory
  | wal
  | off
  deriving DecidableEq, Repr

namespace JournalMode

def all : List JournalMode := [delete, truncate, persist, memory, wal, off]

def keyword : JournalMode → Text
  | delete => "DELETE"
  | truncate => "TRUNCATE"
  | persist => "PERSIST"
  | memory => "MEMORY"
  | wal => "WAL"
  | off => "OFF"

end JournalMode

/-- How often written data are forced to the disk. -/
inductive Synchronous where
  | off
  | normal
  | full
  | extra
  deriving DecidableEq, Repr

namespace Synchronous

def all : List Synchronous := [off, normal, full, extra]

def keyword : Synchronous → Text
  | off => "OFF"
  | normal => "NORMAL"
  | full => "FULL"
  | extra => "EXTRA"

end Synchronous

inductive Encoding where
  | utf8
  | utf16
  | utf16le
  | utf16be
  deriving DecidableEq, Repr

namespace Encoding

def all : List Encoding := [utf8, utf16, utf16le, utf16be]

def keyword : Encoding → Text
  | utf8 => "'UTF-8'"
  | utf16 => "'UTF-16'"
  | utf16le => "'UTF-16le'"
  | utf16be => "'UTF-16be'"

end Encoding

/-- When free pages are given back. -/
inductive AutoVacuum where
  | none
  | full
  | incremental
  deriving DecidableEq, Repr

namespace AutoVacuum

def all : List AutoVacuum := [none, full, incremental]

def keyword : AutoVacuum → Text
  | none => "NONE"
  | full => "FULL"
  | incremental => "INCREMENTAL"

end AutoVacuum

inductive TempStore where
  | default
  | file
  | memory
  deriving DecidableEq, Repr

namespace TempStore

def all : List TempStore := [default, file, memory]

def keyword : TempStore → Text
  | default => "DEFAULT"
  | file => "FILE"
  | memory => "MEMORY"

end TempStore

/-- How long the database file stays locked. -/
inductive LockingMode where
  | normal
  | exclusive
  deriving DecidableEq, Repr

namespace LockingMode

def all : List LockingMode := [normal, exclusive]

def keyword : LockingMode → Text
  | normal => "NORMAL"
  | exclusive => "EXCLUSIVE"

end LockingMode

/-- How much of the write-ahead log a checkpoint works off. -/
inductive WalCheckpoint where
  | passive
  | full
  | restart
  | truncate
  deriving DecidableEq, Repr

namespace WalCheckpoint

def all : List WalCheckpoint := [passive, full, restart, truncate]

def keyword : WalCheckpoint → Text
  | passive => "PASSIVE"
  | full => "FULL"
  | restart => "RESTART"
  | truncate => "TRUNCATE"

end WalCheckpoint

end AnnotatedSchema
