import AllCamera.Stream.MsgBlock
import AllCamera.Lib.Run

/-!
# Sending on a TCP connection (`CTcpConnect`)

The socket does not block and may take a part of what it is given. `sendMessage` (of message blocks)
and `sendv` keep the rest in `m_SendList`, and `sendLeastData` sends from there before anything else.
The answers of the socket and of the allocations are arguments here, and the bytes that the socket has
taken are a member.

* `TcpConnect`: the members, the bytes on the wire, and the messages whose send returned `RET_OK`.
* `sendLeastData`, `sendMessage`, `sendv`: the three functions, with their loops.
* `step`: a call of one of them.
-/

namespace AllCamera

/-- What a block of memory holds between its read and its write pointer. -/
abbrev Bytes := List UInt8

/-- An answer of `ACE::send` or `ACE::sendv`: how many bytes it takes, if there are as many (a call
takes less than 2 GiB), and, when it takes none, whether `errno` makes `checkIsDisconnect` true. -/
structure Sent where
  n : Nat
  disconnect : Bool
  fits : n < 2 ^ 31

namespace Sent

/-- The bytes that it takes of a buffer. -/
def taken (o : Sent) (data : Bytes) : Bytes := data.take o.n

/-- `nSendSize`, or `none` for an error after which the connection is closed. -/
def nSendSize (o : Sent) (data : Bytes) : Option Nat :=
  if (o.taken data).length = 0 then if o.disconnect then none else some 0
  else some (o.taken data).length

end Sent

/-- The return values; `undefined` after a call on a null pointer. -/
inductive SendRet where
  | ok
  | fail
  | disconnect
  | undefined
  deriving DecidableEq, Repr

/-- `CTcpConnect`, as far as it sends. `started` is `m_Status == NETWORK_HANDLE_STATUS_START`. -/
structure TcpConnect where
  started : Bool
  sendList : List Bytes
  wire : Bytes
  messages : List Bytes

namespace TcpConnect

/-- A connection after `start`. -/
def init : TcpConnect := ⟨true, [], [], []⟩

/-- What a loop returned, took, and left in the list or put there. -/
structure Loop where
  ret : SendRet
  taken : Bytes
  list : List Bytes

/-! ## `sendLeastData` -/

/-- The loop over `m_SendList`; `out k` is the socket's answer for its `k`-th block. -/
def leastLoop (out : Nat → Sent) : List Bytes → Loop
  | [] => ⟨.ok, [], []⟩
  | b :: bs =>
    match (out 0).nSendSize b with
    | none => ⟨.disconnect, (out 0).taken b, b :: bs⟩
    | some nRet =>
      if b.length ≠ nRet then ⟨.fail, (out 0).taken b, b.drop nRet :: bs⟩
      else
        let r := leastLoop (fun k => out (k + 1)) bs
        { r with taken := (out 0).taken b ++ r.taken }

theorem leastLoop_nil (out : Nat → Sent) : leastLoop out [] = ⟨.ok, [], []⟩ := rfl

theorem leastLoop_cons (out : Nat → Sent) (b : Bytes) (bs : List Bytes) :
    leastLoop out (b :: bs) =
      match (out 0).nSendSize b with
      | none => ⟨.disconnect, (out 0).taken b, b :: bs⟩
      | some nRet =>
        if b.length ≠ nRet then ⟨.fail, (out 0).taken b, b.drop nRet :: bs⟩
        else
          let r := leastLoop (fun k => out (k + 1)) bs
          { r with taken := (out 0).taken b ++ r.taken } := rfl

/-- `sendLeastData`. -/
def sendLeastData (c : TcpConnect) (out : Nat → Sent) : SendRet × TcpConnect :=
  let r := leastLoop out c.sendList
  (r.ret, { c with
    started := c.started && r.ret != .disconnect
    sendList := r.list
    wire := c.wire ++ r.taken })

/-- The beginning of the other two functions. -/
def flush (c : TcpConnect) (out : Nat → Sent) : SendRet × TcpConnect :=
  if c.sendList = [] then (.ok, c) else c.sendLeastData out

/-! ## `sendMessage` -/

/-- The second loop of `sendMessage`: the blocks from the one on that was not taken as a whole are
duplicated, if there is memory (`dup`), and put into the list. A null pointer is not looked for. -/
def queueLoop (dup : Nat → Bool) (nSendSize : Nat) : List (Option Bytes) → Loop
  | [] => ⟨.ok, [], []⟩
  | none :: _ => ⟨.undefined, [], []⟩
  | some b :: bs =>
    if dup 0 then
      let r := queueLoop (fun k => dup (k + 1)) 0 bs
      { r with list := b.drop nSendSize :: r.list }
    else ⟨.disconnect, [], []⟩

theorem queueLoop_nil (dup : Nat → Bool) (nSendSize : Nat) : queueLoop dup nSendSize [] = ⟨.ok, [], []⟩ := rfl

theorem queueLoop_none (dup : Nat → Bool) (nSendSize : Nat) (bs : List (Option Bytes)) :
    queueLoop dup nSendSize (none :: bs) = ⟨.undefined, [], []⟩ := rfl

theorem queueLoop_some (dup : Nat → Bool) (nSendSize : Nat) (b : Bytes) (bs : List (Option Bytes)) :
    queueLoop dup nSendSize (some b :: bs) =
      if dup 0 then
        let r := queueLoop (fun k => dup (k + 1)) 0 bs
        { r with list := b.drop nSendSize :: r.list }
      else ⟨.disconnect, [], []⟩ := rfl

/-- The first loop of `sendMessage`, with the second one behind it; `out k` is the socket's answer
for the `k`-th block. -/
def sendLoop (out : Nat → Sent) (dup : Nat → Bool) : List (Option Bytes) → Loop
  | [] => ⟨.ok, [], []⟩
  | none :: _ => ⟨.fail, [], []⟩
  | some b :: bs =>
    if b.length = 0 then sendLoop (fun k => out (k + 1)) (fun k => dup (k + 1)) bs
    else
      match (out 0).nSendSize b with
      | none => ⟨.disconnect, (out 0).taken b, []⟩
      | some nSendSize =>
        if b.length ≠ nSendSize then
          let r := queueLoop dup nSendSize (some b :: bs)
          { r with taken := (out 0).taken b }
        else
          let r := sendLoop (fun k => out (k + 1)) (fun k => dup (k + 1)) bs
          { r with taken := (out 0).taken b ++ r.taken }

theorem sendLoop_nil (out : Nat → Sent) (dup : Nat → Bool) : sendLoop out dup [] = ⟨.ok, [], []⟩ := rfl

theorem sendLoop_none (out : Nat → Sent) (dup : Nat → Bool) (bs : List (Option Bytes)) :
    sendLoop out dup (none :: bs) = ⟨.fail, [], []⟩ := rfl

theorem sendLoop_some (out : Nat → Sent) (dup : Nat → Bool) (b : Bytes) (bs : List (Option Bytes)) :
    sendLoop out dup (some b :: bs) =
      if b.length = 0 then sendLoop (fun k => out (k + 1)) (fun k => dup (k + 1)) bs
      else
        match (out 0).nSendSize b with
        | none => ⟨.disconnect, (out 0).taken b, []⟩
        | some nSendSize =>
          if b.length ≠ nSendSize then
            let r := queueLoop dup nSendSize (some b :: bs)
            { r with taken := (out 0).taken b }
          else
            let r := sendLoop (fun k => out (k + 1)) (fun k => dup (k + 1)) bs
            { r with taken := (out 0).taken b ++ r.taken } := rfl

/-- What a function returns and leaves after its loops, and the message if it returns `RET_OK`. -/
def finish (c : TcpConnect) (r : Loop) (message : Bytes) : TcpConnect where
  started := c.started && r.ret != .disconnect
  sendList := c.sendList ++ r.list
  wire := c.wire ++ r.taken
  messages := if r.ret = .ok then c.messages ++ [message] else c.messages

/-- The bytes of an array of message blocks. -/
def blockBytes (pMessage : List (Option Bytes)) : Bytes :=
  (pMessage.map fun b => b.getD []).flatten

/-- `sendMessage`, given an array of message blocks. -/
def sendMessage (c : TcpConnect) (pMessage : List (Option Bytes)) (least out : Nat → Sent)
    (dup : Nat → Bool) : TcpConnect :=
  if !c.started then c
  else
    match c.flush least with
    | (.ok, c) => c.finish (sendLoop out dup pMessage) (blockBytes pMessage)
    | (_, c) => c

/-! ## `sendv` -/

/-- `ACE_Message_Block::copy` into a block of the pool: what does not fit is not copied. -/
def copyBlock (block data : Bytes) : Bytes :=
  if MsgBlock.blockSize - block.length < data.length then block else block ++ data

/-- The loop that copies what is behind the first `unSize` bytes. -/
def copyLoop (block : Bytes) (unSize : Nat) : List Bytes → Bytes
  | [] => block
  | v :: vs =>
    if unSize < v.length then copyLoop (copyBlock block (v.drop unSize)) 0 vs
    else copyLoop block (unSize - v.length) vs

/-- `sendv` behind the flush. -/
def sendvLoop (pIovec : List Bytes) (unDataSize : UInt32) (out : Sent) (alloc : Bool) : Loop :=
  match out.nSendSize pIovec.flatten with
  | none => ⟨.disconnect, out.taken pIovec.flatten, []⟩
  | some nRet =>
    if unDataSize.toNat ≠ nRet then
      if alloc then ⟨.ok, out.taken pIovec.flatten, [copyLoop [] nRet pIovec]⟩
      else ⟨.disconnect, out.taken pIovec.flatten, []⟩
    else ⟨.ok, out.taken pIovec.flatten, []⟩

/-- `sendv`. -/
def sendv (c : TcpConnect) (pIovec : List Bytes) (unDataSize : UInt32) (least : Nat → Sent)
    (out : Sent) (alloc : Bool) : TcpConnect :=
  if !c.started then c
  else
    match c.flush least with
    | (.ok, c) => c.finish (sendvLoop pIovec unDataSize out alloc) pIovec.flatten
    | (_, c) => c

/-! ## Calls -/

/-- A call, with the answers that it gets. -/
inductive Call where
  | sendLeastData (least : Nat → Sent)
  | sendMessage (pMessage : List (Option Bytes)) (least out : Nat → Sent) (dup : Nat → Bool)
  | sendv (pIovec : List Bytes) (unDataSize : UInt32) (least : Nat → Sent) (out : Sent)
    (alloc : Bool)

/-- The call's effect. -/
def step (c : TcpConnect) : Call → TcpConnect
  | .sendLeastData least => (c.sendLeastData least).2
  | .sendMessage pMessage least out dup => c.sendMessage pMessage least out dup
  | .sendv pIovec unDataSize least out alloc => c.sendv pIovec unDataSize least out alloc

end TcpConnect

end AllCamera
