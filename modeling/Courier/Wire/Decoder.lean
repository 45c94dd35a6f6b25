import Courier.Wire.Codec

/-!
# Taking messages from a buffer

A decoder takes one frame at a time from the front of a buffer that grows behind. A frame longer
than the limit is refused and taken away; so is, but left where it is, more than the limit without a
complete frame. A malformed frame is taken away before it is reported, so that the buffer stands at
the next one.
-/

namespace Courier

open Text Wire

structure Decoder where
  limit : Option Nat := some 65536
deriving DecidableEq, Repr

inductive Cut where
  | frame (f : Frame)
  | tooLarge (limit : Nat)
  | more
deriving DecidableEq, Repr

namespace Decoder

def defaultLimit : Nat := 65536

def unlimited : Decoder := ⟨none⟩

def exceeded? (d : Decoder) (size : Nat) : Option Nat :=
  d.limit.filter (· < size)

/-- Cuts a frame from the buffer; the second part is what is left of it. -/
def cut (d : Decoder) (buffer : Bytes) : Cut × Bytes :=
  let bs := Frame.skipBlankLines buffer
  match Frame.locate? bs with
  | some (f, rest) =>
      -- a frame beyond the limit goes as a whole, so that the buffer stands at the next one
      match d.exceeded? f.size with
      | some limit => (.tooLarge limit, rest)
      | none => (.frame f, rest)
  | none =>
      -- an unfinished blank line counts here as well, though a finished one has been skipped
      match d.exceeded? bs.length with
      | some limit => (.tooLarge limit, bs)
      | none => (.more, bs)

theorem length_cut_frame {d : Decoder} {buffer rest : Bytes} {f : Frame}
    (h : d.cut buffer = (.frame f, rest)) : rest.length < buffer.length := by
  unfold cut at h
  have hs := Frame.length_skipBlankLines buffer
  dsimp only at h
  split at h
  · rename_i f' rest' hl
    have := Frame.length_locate? hl
    split at h
    · simp at h
    · simp only [Prod.mk.injEq] at h
      rw [← h.2]
      omega
  · split at h <;> simp at h

/-- Takes a message from the buffer, read from its frame; `none` if more bytes are needed. -/
def take {α : Type} (d : Decoder) (read : Frame → Except Failure α) (buffer : Bytes) :
    Except Failure (Option α) × Bytes :=
  match d.cut buffer with
  | (.frame f, rest) => ((read f).map some, rest)
  | (.tooLarge limit, rest) => (.error (.payloadTooLarge limit), rest)
  | (.more, rest) => (.ok none, rest)

def takeRequest (d : Decoder) (buffer : Bytes) : Except Failure (Option Request) × Bytes :=
  d.take Frame.toRequest buffer

def takeResponse (d : Decoder) (buffer : Bytes) : Except Failure (Option Response) × Bytes :=
  d.take Frame.toResponse buffer

/-- What the bytes of exactly one message are read to; ASCII blanks may follow it. -/
def takeOnly {α : Type} (read : Frame → Except Failure α) (bs : Bytes) : Except Failure α :=
  match unlimited.take read bs with
  | (.error f, _) => .error f
  | (.ok none, _) => .error (.badRequest .unfinishedFrame)
  | (.ok (some m), rest) =>
      if rest.all isBlankByte then .ok m else .error (.badRequest .trailingBytes)

end Decoder

def Request.parse (bs : Bytes) : Except Failure Request := Decoder.takeOnly Frame.toRequest bs

def Response.parse (bs : Bytes) : Except Failure Response := Decoder.takeOnly Frame.toResponse bs

end Courier
