import RequestFeed.Feed.Basic
import RequestFeed.Feed.Input
import RequestFeed.Frame.Decoder
/-!
# Demultiplexers

A demultiplexer turns the bytes of one connection into a feed of requests. Every pump takes bytes
from the input once, decodes the frames that they complete, and delivers what the frames say.

*Failure.* Bytes that are no frame, and frames that cannot be routed, end the input for good: the
live streams are told, and the demultiplexer does not read again. What was delivered before stays
in the feed.
-/

namespace RequestFeed

/-- Turns the bytes of one connection into a feed. -/
structure Demultiplexer where
  /-- How many bytes one pump takes at most. -/
  chunk : Nat
  input : Input := {}
  decoder : Decoder := {}
  router : Router := {}
  feed : Feed := {}
  /-- The bytes of the connection made no sense. -/
  failed : Bool := false
  /-- The number of pumps that tried to take bytes. -/
  pumps : Nat := 0
  deriving DecidableEq, Repr

/-- A demultiplexer that has routed frames, with what it delivered and told. -/
structure Routed where
  demux : Demultiplexer
  deliveries : List Delivery := []
  notices : List Notice := []

/-- What was delivered and told before comes in front. It comes in with the latest first. -/
def Routed.after (done : List Delivery) (told : List Notice) (r : Routed) : Routed :=
  { r with deliveries := done.reverse ++ r.deliveries, notices := told.reverse ++ r.notices }

theorem Routed.after_after (done ds : List Delivery) (told ns : List Notice) (r : Routed) :
    (r.after ds ns).after done told = r.after (ds ++ done) (ns ++ told) := by
  simp [after]

/-- A demultiplexer after a pump, with what the pump took, delivered and told. -/
structure Pumped (σ : Type) where
  progress : Bool
  demux : Demultiplexer
  source : σ
  taken : Bytes := []
  deliveries : List Delivery := []
  notices : List Notice := []

namespace Demultiplexer

/-- A demultiplexer at the start of a connection. A pump takes one byte at least. -/
def create (chunk maxPayload : Nat) : Demultiplexer :=
  { chunk := Nat.max chunk 1, decoder := { maxPayload } }

/-- Ends the input: the live streams are told. -/
def fail (cause : FrameError) (d : Demultiplexer) : Routed :=
  let (deliveries, router) := d.router.fail
  let (feed, notices) := d.feed.deliverAll deliveries
  { demux := { d with router, feed, failed := true }
    deliveries
    notices := .framingFailed cause d.router.live.length :: notices }

/--
Delivers what every whole frame says that the decoder holds. What was delivered and told before
comes in with the latest first.
-/
def routeFrom (done : List Delivery) (told : List Notice) (d : Demultiplexer) : Routed :=
  match _h : d.decoder.next.1 with
  | .ok none => Routed.after done told { demux := { d with decoder := d.decoder.next.2 } }
  | .error e => (fail e { d with decoder := d.decoder.next.2 }).after done told
  | .ok (some f) =>
    match d.router.dispatch f with
    | .error e => (fail e { d with decoder := d.decoder.next.2 }).after done told
    | .ok (deliveries, router) =>
      let (feed, notices) := d.feed.deliverAll deliveries
      routeFrom (deliveries.reverse ++ done) (notices.reverse ++ told)
        { d with decoder := d.decoder.next.2, router, feed }
termination_by d.decoder.buffered
decreasing_by exact Decoder.buffered_lt_of_next _h

/-- Delivers what every whole frame says that the decoder holds. -/
def routeAll (d : Demultiplexer) : Routed := routeFrom [] [] d

theorem input_routeFrom (done : List Delivery) (told : List Notice) (d : Demultiplexer) :
    (routeFrom done told d).demux.input = d.input := by
  fun_induction routeFrom done told d with
  | case1 | case2 | case3 => rfl
  | case4 done told d f _ deliveries router _ feed notices _ ih => exact ih

theorem input_routeAll (d : Demultiplexer) : (routeAll d).demux.input = d.input :=
  input_routeFrom [] [] d

section

variable {σ : Type} [Source σ]

/-- Takes bytes once and delivers what they say. -/
def pump (blocking : Blocking) (d : Demultiplexer) (s : σ) : Pumped σ :=
  if d.failed then { progress := false, demux := d, source := s }
  else
    let (taken, input, source) := d.input.take d.chunk blocking s
    let d := { d with input, pumps := d.pumps + 1 }
    if taken = [] then { progress := false, demux := d, source }
    else
      let routed := routeAll { d with decoder := d.decoder.feed taken }
      { progress := true
        demux := routed.demux
        source
        taken
        deliveries := routed.deliveries
        notices := routed.notices }

def remaining (d : Demultiplexer) (s : σ) : Nat := d.input.remaining s

/-- A pump that makes progress has taken something. -/
theorem remaining_lt_of_progress {blocking : Blocking} {d : Demultiplexer} {s : σ}
    (h : (pump blocking d s).progress = true) :
    (pump blocking d s).demux.remaining (pump blocking d s).source < d.remaining s := by
  have hle := Input.length_take_add_remaining_le d.chunk blocking d.input s
  unfold pump at h ⊢
  generalize d.input.take d.chunk blocking s = taken at h hle ⊢
  obtain ⟨bs, input, source⟩ := taken
  split
  · simp_all
  next hf =>
    rw [if_neg hf] at h
    dsimp only at h hle ⊢
    split
    · simp_all
    next hb =>
      have hl : bs.length ≠ 0 := fun h0 => hb (List.length_eq_zero_iff.mp h0)
      simp only [remaining, input_routeAll]
      omega

/-- A pump that makes no progress leaves the requests as they are. -/
theorem remaining_pump_of_not_progress {blocking : Blocking} {d : Demultiplexer} {s : σ}
    (h : (pump blocking d s).progress = false) :
    (pump blocking d s).demux.remaining (pump blocking d s).source ≤ d.remaining s ∧
      (pump blocking d s).demux.feed = d.feed := by
  have hle := Input.length_take_add_remaining_le d.chunk blocking d.input s
  unfold pump at h ⊢
  generalize d.input.take d.chunk blocking s = taken at h hle ⊢
  obtain ⟨bs, input, source⟩ := taken
  split
  · exact ⟨Nat.le_refl _, rfl⟩
  next hf =>
    rw [if_neg hf] at h
    dsimp only at h hle ⊢
    split
    · exact ⟨Nat.le_trans (Nat.le_add_left _ _) hle, rfl⟩
    next hb => simp [hb] at h

def prune (d : Demultiplexer) : Demultiplexer := { d with feed := d.feed.prune }

/--
Pumps until there is something to report or nothing more to take. What was told before is told
again, in front; it comes in with the latest first.
-/
def pumpFrom (told : List Notice) (blocking : Blocking) (d : Demultiplexer) (s : σ) :
    Demultiplexer × σ × List Notice :=
  let told := d.feed.pruneNotices.reverse ++ told
  if d.prune.feed.isReady then (d.prune, s, told.reverse)
  else
    let pumped := pump blocking d.prune s
    let told := pumped.notices.reverse ++ told
    if _h : (pump blocking d.prune s).progress then
      pumpFrom told blocking pumped.demux pumped.source
    else (pumped.demux, pumped.source, told.reverse)
termination_by d.remaining s
decreasing_by exact remaining_lt_of_progress _h

/-- Pumps until there is something to report or nothing more to take. -/
def pumpUntilReady (blocking : Blocking) (d : Demultiplexer) (s : σ) :
    Demultiplexer × σ × List Notice :=
  pumpFrom [] blocking d s

end

end Demultiplexer
end RequestFeed
