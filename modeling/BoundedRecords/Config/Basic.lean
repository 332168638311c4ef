import BoundedRecords.Text.Quoted

/-! The configuration of the program: its fields, their defaults and the values it can run with. -/
namespace BoundedRecords

structure Config where
  port : Int64
  bind : Bytes
  /-- Guards the record routes unless it is empty. -/
  apiKey : Bytes
  level : Bytes
  format : Bytes
  /-- The bytes that live records may hold; zero sets no limit. -/
  budget : Int64
deriving DecidableEq, Repr

namespace Config

def default : Config := ⟨8080, utf8 "127.0.0.1", [], utf8 "info", utf8 "json", 0⟩

/-- A value the program cannot run with. -/
inductive Invalid where
  | port (n : Int64)
  | level (word : Bytes)
  | format (word : Bytes)
  | budget (n : Int64)
deriving DecidableEq, Repr

def Invalid.message : Invalid → Bytes
  | .port n => utf8 "invalid port: " ++ Decimal.ofInt64 n
  | .level word => utf8 "invalid log level: " ++ Quoted.text word
  | .format word => utf8 "invalid log format: " ++ Quoted.text word
  | .budget n => utf8 "invalid allocator budget: " ++ Decimal.ofInt64 n

def levels : List Bytes := ["debug", "info", "warn", "error"].map utf8
def formats : List Bytes := ["json", "console"].map utf8

/-- The first of the fields that is invalid. -/
def validate (c : Config) : Except Invalid Unit :=
  if c.port < 0 || 65535 < c.port then .error (.port c.port)
  else if !levels.contains c.level then .error (.level c.level)
  else if !formats.contains c.format then .error (.format c.format)
  else if c.budget < 0 then .error (.budget c.budget)
  else .ok ()

/-- The address that is announced. -/
def address (c : Config) : Bytes := c.bind ++ 0x3A :: Decimal.ofInt64 c.port

end Config

/-- The address that is listened on: a host with a colon stands in brackets. -/
def listenAddress (host : Bytes) (port : Int64) : Bytes :=
  if host.contains 0x3A then 0x5B :: host ++ utf8 "]:" ++ Decimal.ofInt64 port
  else host ++ 0x3A :: Decimal.ofInt64 port

end BoundedRecords
