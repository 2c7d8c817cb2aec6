import SysDetector.Library.Numerals
import SysDetector.Proc.State
import SysDetector.Fs.State

namespace SysDetector
open CLib

def printRow (fields : List Bytes) : Bytes := (lit "\t").intercalate fields ++ lit "\n"

def printSwitch (status : Bool) : Bytes := if status then lit "On" else lit "Off"

def printNum (num : Nat) : Bytes := lit "[" ++ decimal num ++ lit "]"

namespace Proc

def handleListPrintf (row : ConfigRow) : Bytes :=
  printRow [printNum row.num, decimal row.config.configId.toNat, row.config.name.text,
    row.config.user.text, row.config.recoverCmd.text, row.config.monitorCmd.text,
    row.config.stopCmd.text, row.config.alarmCmd.text, decimalInt row.config.monitorPeriod.toInt,
    printSwitch row.config.monitorSwitch]

def printTracked (row : TrackedRow) : Bytes :=
  printRow [decimal row.pid.toNat, decimal row.ppid.toNat, row.comm.text, row.filename.text,
    decimalInt row.runtime ++ lit "s", row.argv.text]

def Listing.text : Listing → Bytes
  | .config rows =>
      lit "Num\tID\tName\tUser\tRecover\tMonitor\tStop\tAlarm\tPeriod\tSwitch\t\n" ++
        (rows.map handleListPrintf).flatten
  | .tracked rows =>
      lit "PID\tPPID\tCOMM\tFILE\tRUNTIME\tARGV\n" ++ (rows.map printTracked).flatten

end Proc

namespace Fs

def printConfig (row : ConfigRow) : Bytes :=
  printRow [printNum row.num, decimalInt row.config.id.toInt, row.config.name.text,
    row.config.path.text, row.config.operations.text, printSwitch row.config.monitorSwitch]

/-- `localTime` is `strftime` of `localtime`, for the time zone of the system. -/
def printEvent (localTime : Time → Bytes) (event : FsEventRecord) : Bytes :=
  printRow [localTime event.ts, decimalInt event.configId.toInt, event.name.text, event.op.text,
    event.path.text]

def Listing.text (localTime : Time → Bytes) : Listing → Bytes
  | .config rows =>
      lit "Num\tID\tName\tPath\tOperations\tSwitch\n" ++ (rows.map printConfig).flatten
  | .events rows =>
      lit "Time\tID\tName\tOperation\tPath\n" ++ (rows.map (printEvent localTime)).flatten

end Fs

end SysDetector
