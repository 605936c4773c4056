import Huks.Engine.KeyOperate

namespace Huks

-- A call into the engine.
inductive EngineCall
  | init (key : Bytes) (paramSet : HksParamSet) (handleSize tokenSize : Nat)
  | update (handle : Bytes) (paramSet : HksParamSet) (inData : Bytes) (outSize : UInt32)
  | finish (handle : Bytes) (paramSet : HksParamSet) (inData : Bytes) (outSize : UInt32)
  | abort (handle : Bytes) (paramSet : HksParamSet)

namespace EngineCall

def exec (env : EngineEnv) : EngineCall → EngineM Unit
  | init key paramSet handleSize tokenSize =>
    discard <| hksCoreInit env key paramSet handleSize tokenSize
  | update handle paramSet inData outSize =>
    discard <| hksCoreUpdate env handle paramSet inData outSize
  | finish handle paramSet inData outSize =>
    discard <| hksCoreFinish env handle paramSet inData outSize
  | abort handle paramSet => hksCoreAbort env handle paramSet

def step (env : EngineEnv) (s : Engine) (c : EngineCall) : Engine := ((c.exec env).run s).final

end EngineCall

-- Calls one after the other.
def Engine.run (env : EngineEnv) (s : Engine) (calls : List EngineCall) : Engine :=
  calls.foldl (EngineCall.step env) s

-- The part of an update, finish or abort call that works on the node it found.
inductive NodeCall
  | update (paramSet : HksParamSet) (inData : Bytes) (outSize : UInt32)
  | finish (paramSet : HksParamSet) (inData : Bytes) (outSize : UInt32)
  | abort (paramSet : HksParamSet)

def NodeCall.exec (env : EngineEnv) : NodeCall → NodeM Unit
  | update paramSet inData outSize => discard <| updateKeyNode env paramSet inData outSize
  | finish paramSet inData outSize => discard <| finishKeyNode env paramSet inData outSize
  | abort paramSet                 => abortKeyNode env paramSet

-- Where a thread stands that runs one call: before the call, or between two of its sections. The
-- lists of `hks_keynode.c` are locked in the sections `prepared`, `querying` and `deleting`.
inductive Thread
  | started (call : EngineCall)
  | prepared (new : NewKeyNode) (paramSet : HksParamSet) (tokenSize : Nat)
  | added (new : NewKeyNode) (paramSet : HksParamSet) (tokenSize : Nat)
  | querying (sessionId : UInt64) (call : NodeCall)
  | queried (id : Nat) (handle : UInt64) (call : NodeCall)
  | deleting (handle : UInt64)
  | returned

namespace Thread

variable (env : EngineEnv)

def startQuery (handle : Bytes) (paramSet : HksParamSet) (call : NodeCall) : EngineM Thread := do
  beginCall
  let sessionId ← EStateM.attempt do
    MonadExcept.ofExcept (hksCheckParamSetTag paramSet)
    sessionIdOf env handle
  match sessionId with
  | .error _      => return returned
  | .ok sessionId => return querying sessionId call

-- One section of the thread.
def step : Thread → EngineM Thread
  | started (.init key paramSet handleSize tokenSize) => do
    beginCall
    let new ← EStateM.attempt do
      MonadExcept.ofExcept (coreInitPreCheck paramSet handleSize)
      prepareKeyNode env key paramSet
    match new with
    | .error _ => return returned
    | .ok new  => return prepared new paramSet tokenSize
  | prepared new paramSet tokenSize => do
    match ← EStateM.attempt (addKeyNode env new.keyNode new.tokenId) with
    | .error _ => return returned
    | .ok _    => return added new paramSet tokenSize
  | added new paramSet tokenSize => do
    assignParamSets new
    match ← EStateM.attempt (onKeyNode new.keyNode.id (initKeyNode env paramSet tokenSize)) with
    | .error _ => return deleting new.keyNode.handle
    | .ok _    => return returned
  | started (.update handle paramSet inData outSize) =>
    startQuery env handle paramSet (.update paramSet inData outSize)
  | started (.finish handle paramSet inData outSize) =>
    startQuery env handle paramSet (.finish paramSet inData outSize)
  | started (.abort handle paramSet) => startQuery env handle paramSet (.abort paramSet)
  | querying sessionId call => do
    match ← hksQueryKeyNode sessionId with
    | none         => return returned
    | some keyNode => return queried keyNode.id keyNode.handle call
  | queried id handle call => do
    match call, ← EStateM.attempt (onKeyNode id (call.exec env)) with
    | .update .., .ok _ => return returned
    | _, _              => return deleting handle
  | deleting handle => do
    hksDeleteKeyNode handle
    return returned
  | returned => return returned

-- A thread that has returned stays where it is.
theorem step_returned : step env returned = return returned := by
  simp only [step]

-- The next sections, without those of any other thread between them.
def steps : Nat → Thread → EngineM Thread
  | 0, thread     => return thread
  | n + 1, thread => do steps n (← thread.step env)

theorem steps_succ (n : Nat) (thread : Thread) :
    steps env (n + 1) thread = (do steps env n (← thread.step env) : EngineM Thread) := rfl

-- The node whose fields the next section works on.
def uses : Thread → Option Nat
  | added new _ _   => new.keyNode.id
  | queried id _ _  => id
  | _               => none

end Thread

-- The threads of the engine, the addresses of the nodes that `AddKeyNode` evicted, and whether a
-- thread used such a node afterwards.
structure System where
  engine      : Engine := {}
  threads     : List Thread
  evicted     : List Nat := []
  usedEvicted : Bool := false

namespace System

variable (env : EngineEnv)

-- The nodes that `AddKeyNode` frees if the thread is about to call it.
def victims (s : System) : Thread → List Nat
  | .prepared new _ _ =>
    let kept := ((addKeyNode env new.keyNode new.tokenId).run s.engine).final.keyNodes
    (s.engine.keyNodes.map HuksKeyNode.id).filter (· ∉ kept.map HuksKeyNode.id)
  | _ => []

-- The scheduler lets the `i`-th thread run its next section.
def step (s : System) (i : Nat) : System :=
  match s.threads[i]? with
  | none        => s
  | some thread =>
    match (thread.step env).run s.engine with
    | .error _ engine     => { s with engine := engine }
    | .ok thread' engine => {
      engine := engine
      threads := s.threads.set i thread'
      evicted := s.evicted ++ s.victims env thread
      usedEvicted := s.usedEvicted || thread.uses.any (· ∈ s.evicted) }

def run (s : System) (schedule : List Nat) : System := schedule.foldl (step env) s

end System

end Huks
