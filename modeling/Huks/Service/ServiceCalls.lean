import Huks.Service.ClientService

namespace Huks

-- A call of a client.
inductive ServiceCall
  | init (processInfo : HksProcessInfo) (key : Bytes) (paramSet : Option HksParamSet)
    (handleSize tokenSize : Nat)
  | update (handle : Bytes) (processInfo : HksProcessInfo) (paramSet : Option HksParamSet)
    (inData : Bytes) (outSize : UInt32)
  | finish (handle : Bytes) (processInfo : HksProcessInfo) (paramSet : Option HksParamSet)
    (inData : Bytes) (outSize : UInt32)
  | abort (handle : Bytes) (processInfo : HksProcessInfo) (paramSet : Option HksParamSet)
  | deleteProcessInfo (processInfo : HksProcessInfo)

namespace ServiceCall

def exec (env : ServiceEnv) : ServiceCall → ServiceM Unit
  | init processInfo key paramSet handleSize tokenSize =>
    discard <| hksServiceInit env processInfo key paramSet handleSize tokenSize
  | update handle processInfo paramSet inData outSize =>
    discard <| hksServiceUpdate env handle processInfo paramSet inData outSize
  | finish handle processInfo paramSet inData outSize =>
    discard <| hksServiceFinish env handle processInfo paramSet inData outSize
  | abort handle processInfo paramSet => hksServiceAbort env handle processInfo paramSet
  | deleteProcessInfo processInfo => hksServiceDeleteProcessInfo env processInfo

def step (env : ServiceEnv) (s : Sessions Engine) (c : ServiceCall) : Sessions Engine :=
  ((c.exec env).run s).final

end ServiceCall

-- Completed calls one after the other.
def Sessions.serve (env : ServiceEnv) (s : Sessions Engine) (calls : List ServiceCall) :
    Sessions Engine :=
  calls.foldl (ServiceCall.step env) s

-- The calls that work on an operation.
inductive OperationCall
  | update (inData : Bytes) (outSize : UInt32)
  | finish (inData : Bytes) (outSize : UInt32)
  | abort
  deriving DecidableEq

-- What such a call does with the operation that it found, without its output.
def OperationCall.exec (env : ServiceEnv) (handle : Bytes) (processInfo : HksProcessInfo)
    (paramSet : Option HksParamSet) (operation : HksOperation) : OperationCall → ServiceM Release
  | update inData outSize => do
    return (← updateOperation env handle processInfo paramSet inData outSize operation).2
  | finish inData outSize => do
    return (← finishOperation env handle processInfo paramSet inData outSize operation).2
  | abort => do
    return (← abortOperation env handle processInfo paramSet operation).2

-- Where a thread of the service stands that runs one call: before the call, or between two steps
-- that other threads may come in between. The table of sessions is locked in the steps of
-- `querying`, `creating`, `unmarking` and `deleting`, and the engine works in those of `initing`
-- and `marked`.
inductive ServiceThread
  | started (call : ServiceCall)
  | initing (processInfo : HksProcessInfo) (key : Bytes) (paramSet newParamSet : Option HksParamSet)
    (handleSize tokenSize : Nat) (keyFromFile : Bytes) (isBackup : Bool)
  | creating (processInfo : HksProcessInfo) (paramSet : Option HksParamSet) (handle : UInt64)
  | querying (handle : Bytes) (processInfo : HksProcessInfo) (paramSet : Option HksParamSet)
    (call : OperationCall)
  | marked (handle : Bytes) (processInfo : HksProcessInfo) (paramSet : Option HksParamSet)
    (call : OperationCall) (operation : HksOperation)
  | unmarking (handle : Bytes) (operation : HksOperation) (release : Release)
  | deleting (handle : Bytes)
  | returned

namespace ServiceThread

variable (env : ServiceEnv)

-- The read of a key before the engine gets it.
def startInit (processInfo : HksProcessInfo) (key : Bytes) (paramSet newParamSet : Option HksParamSet)
    (handleSize tokenSize : Nat) (keyFromFile : Except HksErrorCode Bytes) : ServiceM ServiceThread := do
  match keyFromFile with
  | .ok keyFromFile =>
    return initing processInfo key paramSet newParamSet handleSize tokenSize keyFromFile false
  | .error e        =>
    if env.supportStorageBackup ∧ needsBackup e then
      match ← EStateM.attempt (getKeyData env processInfo key newParamSet .bakKey) with
      | .error _        => return returned
      | .ok keyFromFile =>
        return initing processInfo key paramSet newParamSet handleSize tokenSize keyFromFile true
    else
      return returned

-- One step of the thread.
def step : ServiceThread → ServiceM ServiceThread
  | started (.init processInfo key paramSet handleSize tokenSize) => do
    let checked := hksCheckServiceInitParams processInfo.processName key paramSet
    match checked with
    | .error _ => return returned
    | .ok _    =>
      let (keyFromFile, newParamSet) ← getKeyAndNewParamSet env processInfo key paramSet
      startInit env processInfo key paramSet newParamSet handleSize tokenSize keyFromFile
  | initing processInfo key paramSet newParamSet handleSize tokenSize keyFromFile isBackup => do
    match ← EStateM.attempt (huksAccessInit env keyFromFile newParamSet handleSize tokenSize) with
    | .ok (handle, _) => return creating processInfo paramSet handle
    | .error e        =>
      if isBackup then
        return returned
      else
        startInit env processInfo key paramSet newParamSet handleSize tokenSize (.error e)
  | creating processInfo paramSet handle => do
    discard <| EStateM.attempt
      (createOperation env.sessions processInfo paramSet (toBytes64 handle) true)
    return returned
  | started (.update handle processInfo paramSet inData outSize) =>
    return querying handle processInfo paramSet (.update inData outSize)
  | started (.finish handle processInfo paramSet inData outSize) =>
    match outputForFinish paramSet outSize with
    | .error _    => return returned
    | .ok outSize => return querying handle processInfo paramSet (.finish inData outSize)
  | started (.abort handle processInfo paramSet) =>
    return querying handle processInfo paramSet .abort
  | querying handle processInfo paramSet call => do
    match ← queryOperationAndMarkInUse processInfo handle with
    | none           => return returned
    | some operation => return marked handle processInfo paramSet call operation
  | marked handle processInfo paramSet call operation => do
    match ← call.exec env handle processInfo paramSet operation with
    | .none   => return returned
    | release => return unmarking handle operation release
  | unmarking handle operation release => do
    markOperationUnUse operation.addr
    return if release = .delete then deleting handle else returned
  | deleting handle => do
    deleteOperation handle
    return returned
  | started (.deleteProcessInfo processInfo) => do
    hksServiceDeleteProcessInfo env processInfo
    return returned
  | returned => return returned

-- A thread that has returned stays where it is.
theorem step_returned : step env returned = return returned := by
  simp only [step]

-- The next steps, without those of any other thread between them.
def steps : Nat → ServiceThread → ServiceM ServiceThread
  | 0, thread     => return thread
  | n + 1, thread => do steps n (← thread.step env)

theorem steps_succ (n : Nat) (thread : ServiceThread) :
    steps env (n + 1) thread = (do steps env n (← thread.step env) : ServiceM ServiceThread) := rfl

-- The operation that the thread marked in use and has still to deal with.
def holds : ServiceThread → Option Nat
  | marked _ _ _ _ operation  => operation.addr
  | unmarking _ operation _   => operation.addr
  | _                         => none

end ServiceThread

structure ServiceSystem where
  sessions : Sessions Engine
  threads  : List ServiceThread

namespace ServiceSystem

variable (env : ServiceEnv)

-- One call for each thread, on empty tables.
def start (calls : List ServiceCall) : ServiceSystem where
  sessions := { engine := {} }
  threads  := calls.map .started

-- The scheduler lets the `i`-th thread take its next step.
def step (s : ServiceSystem) (i : Nat) : ServiceSystem :=
  match s.threads[i]? with
  | none        => s
  | some thread =>
    match (thread.step env).run s.sessions with
    | .error _ sessions     => { s with sessions := sessions }
    | .ok thread' sessions => { sessions := sessions, threads := s.threads.set i thread' }

def run (s : ServiceSystem) (schedule : List Nat) : ServiceSystem := schedule.foldl (step env) s

end ServiceSystem

end Huks
