import RevisionWatch.Command.Run
/-!
# Scripts

A script says beforehand what the other side of every connection does: which replies the daemon
and the agent give, each on a connection of its own, and when the user interrupts. A reply is a
text after which the connection is closed, or an object that gives the text or the bytes and says
whether the connection hangs instead. A side that the script leaves out does not listen.
-/

namespace RevisionWatch.Command

/-- What the other side of every connection does. -/
structure Script where
  daemon : Option (List Http.Reply) := none
  agent : Agent.Listener := ⟨⟨"localhost", 30000⟩, none⟩
  interrupts : Interrupts := .never
deriving Inhabited

namespace Script

/-! ## 1. Replies -/

/-- What has been read of a reply. -/
structure ReplyDraft where
  text : Option String := none
  bytes : Option (List Nat) := none
  hangs : Option Bool := none

/-- A reply as an object, every member optional. The bytes stand behind the text. -/
def replyLayout : Json.Layout ReplyDraft Http.Reply where
  title := "a reply"
  fields := [
    .of "text" ReplyDraft.text (fun d x => { d with text := some x }) fun _ => Json.text,
    .of "bytes" ReplyDraft.bytes (fun d x => { d with bytes := some x })
      (Json.listOf fun _ => Json.natural 256 "a byte"),
    .of "hangs" ReplyDraft.hangs (fun d x => { d with hangs := some x }) fun _ => Json.boolean]
  blank := {}
  finish d :=
    let sent := Bytes.ofText (d.text.getD "") ++ (d.bytes.getD []).map (·.toUInt8)
    .ok (if d.hangs.getD false then .hangs sent else .closes sent)

/-- A reply in either form. -/
def reply : Json.Nested Http.Reply := fun room bs =>
  match Json.dropBlanks bs with
  | b :: rest =>
    if b == Json.quote then do
      let (s, rest) ← Json.textBody rest
      .ok (.closes (Bytes.ofText s), rest)
    else replyLayout.read room (b :: rest)
  | [] => .error .ended

/-- Replies, if any are given. -/
def replies : Json.Nested (Option (List Http.Reply)) := fun room =>
  Json.optional (Json.listOf reply room)

/-! ## 2. The whole -/

/-- What has been read of the agent. -/
structure AgentDraft where
  host : Option String := none
  number : Option Nat := none
  replies : Option (Option (List Http.Reply)) := none

/-- The agent, which listens where the usual configuration looks for it unless told otherwise. -/
def agentLayout : Json.Layout AgentDraft Agent.Listener where
  title := "an agent"
  fields := [
    .of "host" AgentDraft.host (fun d x => { d with host := some x }) fun _ => Json.text,
    .of "number" AgentDraft.number (fun d x => { d with number := some x }) fun _ =>
      Json.natural Decimal.word16 "a 16-bit number",
    .of "replies" AgentDraft.replies (fun d x => { d with replies := some x }) replies]
  blank := {}
  finish d := .ok ⟨⟨d.host.getD "localhost", d.number.getD 30000⟩, d.replies.getD none⟩

/-- What has been read of a script. -/
structure Draft where
  daemon : Option (Option (List Http.Reply)) := none
  agent : Option Agent.Listener := none
  interruptAfter : Option (Option Nat) := none

/-- A script, every part of it optional. -/
def layout : Json.Layout Draft Script where
  title := "a script"
  fields := [
    .of "daemon" Draft.daemon (fun d x => { d with daemon := some x }) replies,
    .of "agent" Draft.agent (fun d x => { d with agent := some x }) agentLayout.read,
    .of "interrupt_after" Draft.interruptAfter (fun d x => { d with interruptAfter := some x })
      fun _ => Json.optional (Json.natural Decimal.word32 "a count")]
  blank := {}
  finish d :=
    let silent : Script := {}
    let interrupts := match d.interruptAfter.getD none with
      | some count => Interrupts.afterReplies count
      | none => .never
    .ok ⟨d.daemon.getD none, d.agent.getD silent.agent, interrupts⟩

/-- Reads a script from a whole JSON text. -/
def ofJson (bs : Bytes) : Except Json.Fault Script :=
  Json.document layout.read bs

end Script

end RevisionWatch.Command
