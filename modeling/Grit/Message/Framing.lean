import Grit.Library.Framing
import Grit.DbService.OnMessage
import Grit.Gtm.Basic
import Grit.Dbtl.Basic
import Grit.EntityService.Basic
import Grit.Message.RoundTrip

/-!
# The receiving side of a connection

The network library appends each chunk it reads from a connection to an input buffer and
calls the message handler of the server with it. The handlers of all servers begin
alike: they take the whole buffer out, read one message from its beginning and go on to
the switch over its command.
-/

namespace Grit

open Framing

/-- The servers with their message handlers. -/
inductive Server where
  | dbService
  | gtm
  | dbtl
  | es
deriving DecidableEq, Repr

namespace Server

variable {C W : Type}

/-- The state of a server with connections of type `C` and conflict tables of type `W`. -/
def State (C W : Type) : Server → Type
  | dbService => DbService C W
  | gtm => Gtm C
  | dbtl => Dbtl C
  | es => ES C

/-- The switch of the message handler, which gets one message. -/
def onMessage (conn : C) : (server : Server) → RootMsg → State C W server → State C W server
  | dbService => DbService.onMessage conn
  | gtm => Gtm.onMessage conn
  | dbtl => Dbtl.onMessage conn
  | es => ES.onMessage conn

end Server

/-- A server with the input buffer of one connection and the messages that its handler
has gone on with, oldest first; `none` stands for a read of bytes that are no message. -/
structure Inbox (S : Type) where
  state : S
  buffer : List UInt8
  dispatched : List (Option RootMsg)

namespace Inbox

variable {S : Type}

def init (s : S) : Inbox S := { state := s, buffer := [], dispatched := [] }

/-- The beginning of each message handler: `retrieveAllAsString`, then `GetRootMsg`. -/
def handle (wire : Codec RootMsg UInt8) (switch : RootMsg → S → S) (r : Inbox S) :
    Inbox S :=
  { state :=
      match wire.root r.buffer with
      | none => r.state
      | some m => switch m r.state
    buffer := []
    dispatched := r.dispatched ++ [wire.root r.buffer] }

/-- A chunk arrives. -/
def receive (wire : Codec RootMsg UInt8) (switch : RootMsg → S → S) (r : Inbox S)
    (chunk : List UInt8) : Inbox S :=
  { r with buffer := r.buffer ++ chunk }.handle wire switch

def receiveAll (wire : Codec RootMsg UInt8) (switch : RootMsg → S → S) (r : Inbox S)
    (chunks : List (List UInt8)) : Inbox S :=
  chunks.foldl (receive wire switch) r

/-- Each chunk is read alone, since the buffer is empty before it. -/
theorem receiveAll_dispatched (wire : Codec RootMsg UInt8) (switch : RootMsg → S → S)
    (chunks : List (List UInt8)) (r : Inbox S) (hr : r.buffer = []) :
    (receiveAll wire switch r chunks).dispatched =
      r.dispatched ++ chunks.map wire.root := by
  induction chunks generalizing r with
  | nil => simp [receiveAll]
  | cons chunk chunks ih =>
      have hnext : receiveAll wire switch r (chunk :: chunks) =
          receiveAll wire switch (r.receive wire switch chunk) chunks := rfl
      rw [hnext, ih _ rfl]
      simp [receive, handle, hr]

end Inbox

/-- A server goes on with the messages sent if and only if every chunk of the stream is
one finished message. -/
theorem framing_iff {C W : Type} (wire : Codec RootMsg UInt8) (server : Server) (conn : C)
    (s : server.State C W) (msgs : List RootMsg) (chunks : List (List UInt8))
    (hvalid : ∀ m ∈ msgs, wire.Valid m)
    (hstream : chunks.flatten = (msgs.map wire.finish).flatten) :
    ((Inbox.init s).receiveAll wire (server.onMessage conn) chunks).dispatched =
        msgs.map some ↔
      chunks = msgs.map wire.finish := by
  rw [Inbox.receiveAll_dispatched _ _ _ _ rfl, Inbox.init, List.nil_append]
  exact wire.map_root_iff hvalid hstream

/-! ### FlatBuffers -/

theorem decode_of_encode {m : Wire.Msg} {bs : List UInt8} (hvalid : Wire.Valid m)
    (h : Wire.encode true m = some bs) (rest : List UInt8) :
    Wire.decode (bs ++ rest) = some m := by
  obtain ⟨b', -, hchecked, hread⟩ := Wire.build_spec hvalid
  rw [Wire.encode, hchecked] at h
  split at h
  · rename_i hsize
    obtain rfl := Option.some.inj h
    exact hread hsize rest
  · cases h

/-- The message at the beginning of some bytes, if all of its bytes are there. The accessors do
not look at every byte, and may find the message when its last ones are still missing. -/
def wholeMessage (bs : List UInt8) : Option RootMsg :=
  match Wire.decode bs with
  | some (.server m) =>
      match Wire.encode true (.server m) with
      | some bytes => if bytes <+: bs then some m else none
      | none => none
  | _ => none

/-- The builder and the accessors as a codec. -/
def flatBuffers : Codec RootMsg UInt8 where
  Valid m := Wire.Valid (.server m) ∧ (Wire.encode true (.server m)).isSome
  finish m := (Wire.encode true (.server m)).getD []
  root := wholeMessage
  root_finish := by
    intro m hm rest
    obtain ⟨bytes, hbytes⟩ := Option.isSome_iff_exists.1 hm.2
    have hdecode := decode_of_encode hm.1 hbytes rest
    simp [wholeMessage, hbytes, hdecode]
  finish_of_root := by
    intro bs m h
    unfold wholeMessage at h
    split at h
    · split at h
      · rename_i bytes hbytes
        split at h
        · rename_i hprefix
          obtain rfl := Option.some.inj h
          rwa [hbytes, Option.getD_some]
        · cases h
      · cases h
    · cases h

/-- A vote of a DbService without conflict. -/
def vote (txid : Int) : RootMsg := .gtmMsg (createGtmMsg .kJudgeConflit txid)

theorem valid_votes : ∀ m ∈ [vote 7, vote 8], flatBuffers.Valid m := by
  intro m hm
  rcases List.mem_pair.1 hm with rfl | rfl
  · exact ⟨⟨by decide, by decide⟩, by decide +kernel⟩
  · exact ⟨⟨by decide, by decide⟩, by decide +kernel⟩

theorem framing_iff_one_by_one :
    ((Inbox.init (S := Server.State Unit Unit .gtm) (Gtm.init (fun _ => []) 0)).receiveAll
        flatBuffers (Server.gtm.onMessage ())
        [flatBuffers.finish (vote 7), flatBuffers.finish (vote 8)]).dispatched =
      [some (vote 7), some (vote 8)] :=
  (framing_iff (W := Unit) flatBuffers .gtm () (Gtm.init (fun _ => []) 0) [vote 7, vote 8]
    [flatBuffers.finish (vote 7), flatBuffers.finish (vote 8)] valid_votes rfl).2 rfl

/-- Two votes arrive at the GTM in one chunk, and the second one is lost. -/
theorem framing_coalesced :
    (∀ m ∈ [vote 7, vote 8], flatBuffers.Valid m) ∧
      [flatBuffers.finish (vote 7) ++ flatBuffers.finish (vote 8)].flatten =
        ([vote 7, vote 8].map flatBuffers.finish).flatten ∧
      ((Inbox.init (S := Server.State Unit Unit .gtm) (Gtm.init (fun _ => []) 0)).receiveAll
          flatBuffers (Server.gtm.onMessage ())
          [flatBuffers.finish (vote 7) ++ flatBuffers.finish (vote 8)]).dispatched ≠
        [some (vote 7), some (vote 8)] := by
  refine ⟨valid_votes, by simp, ?_⟩
  intro h
  have hlength := congrArg List.length h
  rw [Inbox.receiveAll_dispatched _ _ _ _ rfl] at hlength
  simp [Inbox.init] at hlength

end Grit
