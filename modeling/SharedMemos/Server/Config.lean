import SharedMemos.Limit
import SharedMemos.Text.Blank
import SharedMemos.Text.Numeral

/-!
# Configuration of the server

The server is configured by named variables. A variable that is missing, or whose number is out of
range, takes its default.
-/

namespace SharedMemos.Server

open SharedMemos.Text

/-- The configuration of the server. -/
structure Config where
  databaseUrl : String
  connections : Nat
  host : String
  /-- The TCP port to listen on. -/
  tcpPort : Nat
  /-- Where the server keeps its files. -/
  dataDirectory : String
  /-- Seconds between two sweeps. -/
  sweepInterval : Nat
  /-- The web sites whose pages may call the server. -/
  origins : List String
  maxBody : Nat
deriving Repr, DecidableEq

namespace Config

/-- A directory or file inside a directory. -/
def joinPath (directory name : String) : String :=
  if directory = "" || directory.toList.getLast? == some '/' then directory ++ name
  else directory ++ "/" ++ name

/-- Can the text stand in a header? -/
def isHeaderText (s : String) : Bool :=
  s.toList.all fun c => c == '\t' || (decide (0x20 ≤ c.toNat) && c.toNat != 0x7f)

/-- The origins where none are named. -/
def defaultOrigins : String :=
  "http://localhost:3000,http://localhost:5173"

/-- The origins in a list separated by commas, without blank and impossible ones. -/
def originsOf (text : String) : List String :=
  ((splitOnChar ',' text).map trim).filter fun s => s ≠ "" && isHeaderText s

/-- The configuration that variables give. -/
def ofVariables (value? : String → Option String) : Config :=
  let number? (name : String) (least most : Nat) : Option Nat :=
    ((value? name).bind fun text => nat64? (trim text)).filter fun n => least ≤ n && n ≤ most
  { databaseUrl := (value? "DATABASE_URL").getD "sqlite://memos.db?mode=rwc"
    connections := (number? "DB_MAX_CONNECTIONS" 1 maxNat32).getD Limit.connections
    host := (value? "HOST").getD "0.0.0.0"
    tcpPort := (number? "PORT" 0 65535).getD Limit.tcpPort
    dataDirectory := (value? "DATA_DIR").getD "./data"
    sweepInterval :=
      (number? "UPLOAD_JANITOR_INTERVAL_SECS" 1 maxNat64).getD Limit.sweepInterval
    origins :=
      originsOf (((value? "ALLOWED_ORIGINS").filter fun text => trim text ≠ "").getD defaultOrigins)
    maxBody := (number? "MAX_BODY_BYTES" 0 maxNat64).getD Limit.requestBody }

/-- Where objects are stored. -/
def storageDirectory (c : Config) : String :=
  joinPath c.dataDirectory "assets"

/-- Where the bytes of uploads gather. -/
def scratchDirectory (c : Config) : String :=
  joinPath c.dataDirectory "uploads"

end Config

/-- The settings of the pool of connections to the database; times are in seconds. -/
structure PoolSettings where
  maxConnections : Nat := Limit.connections
  minConnections : Nat := 1
  connectTimeout : Nat := 30
  idleTimeout : Nat := 600
  /-- How long a connection is kept; none for ever. -/
  maxLifetime : Option Nat := some 1800
  busyTimeout : Nat := 5
deriving Repr, DecidableEq

end SharedMemos.Server
