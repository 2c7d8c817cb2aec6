import SysDetector.Library.Runs
import SysDetector.Fs.Commands

namespace SysDetector.Fs
open CLib

inductive FsStep
  | message (env : CommandEnv) (message : Bytes)
  | monitor (env : ReadEnv)
  | edit (directory : Directory)

def step (s : FsState) : FsStep → FsState
  | .message env message => handleMessage env message s
  | .monitor env => monitorOnce env s
  | .edit directory => { s with directory := directory }

def FsState.initial (env : WatchEnv) (directory : Directory) : FsState :=
  (rebuildWatches env (loadConfigs (.zero directory))).logLine .startingMonitoring

end SysDetector.Fs
