import DirectoryWatch.Native.Backend
import DirectoryWatch.Native.Snapshot

/-!
# The backend of the system

Every handle has a watch of its own. A watch is looked at again and again; what its snapshots tell
is sent to the handle. The first look tells nothing, it is what later ones are compared with.
-/

namespace DirectoryWatch.Native

structure Watch where
  ticket : Nat
  root : Path
  recursive : Bool
  /-- The snapshot looked at last. -/
  seen : Option Snapshot
  deriving DecidableEq, Repr

/-- The records of what happened since the last look. A root once gone stays gone. -/
def Watch.look (w : Watch) (snapshot : Snapshot) : List Record × Watch :=
  match w.seen with
  | none => ([], { w with seen := some snapshot })
  | some (.listed entries) =>
    (Snapshot.records w.root (.listed entries) snapshot, { w with seen := some snapshot })
  | some _ => ([], w)

structure Watches where
  /-- Tickets given out so far. -/
  tickets : Nat
  watches : List Watch
  deriving DecidableEq, Repr

namespace Watches

def empty : Watches := ⟨0, []⟩

def attach (_disk : Disk) (root : Path) (recursive : Bool) (w : Watches) :
    Except Error Handle × Watches :=
  (.ok (Handle.make root w.tickets true),
    ⟨w.tickets + 1, w.watches ++ [⟨w.tickets, root, recursive, none⟩]⟩)

def release (h : Handle) (w : Watches) : Watches :=
  { w with watches := w.watches.filter fun watch => !decide (watch.ticket = h.ticket) }

def holds (w : Watches) (ticket : Nat) : Bool :=
  w.watches.any fun watch => watch.ticket = ticket

def backend : Backend Watches := ⟨"notify", true, attach, release, holds⟩

/-- Looks at every watch; the messages come with the tickets they go to. -/
def look (w : Watches) (snapshot : Watch → Snapshot) : List (Nat × List Message) × Watches :=
  let looks := w.watches.map fun watch => (watch.ticket, watch.look (snapshot watch))
  (looks.map fun (ticket, records, _) => (ticket, records.map Message.record),
    { w with watches := looks.map fun (_, _, watch) => watch })

end Watches

end DirectoryWatch.Native
