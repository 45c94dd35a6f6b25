import Courier.Proofs.Chunking

/-!
# Streams laid out as frames

A sender lays a stream out as frames one after another, with any blank lines before each, and
perhaps more bytes behind the last. The decoder cuts it into exactly these frames
(`harvest_layout`), and blank lines within the limit keep it steady (`isSteady_layout`). If each
frame is one that a message is written as, the messages are taken (`takeAll_written`).
-/

namespace Courier

open Text Wire

namespace Wire.Frame

/-- The frame is what is located at the front of its own bytes, and no blank line stands there. -/
structure IsWhole (f : Frame) : Prop where
  located : locate? f.bytes = some (f, [])
  head : f.head.all isBlankByte = false

/-- Frames in order, each after the blank lines in front of it. -/
abbrev Layout := List (List Bytes × Frame)

namespace Layout

/-- The bytes of the frames and of the lines between them. -/
def bytes (layout : Layout) : Bytes := layout.flatMap fun p => p.1.flatten ++ p.2.bytes

def frames (layout : Layout) : List Frame := layout.map (·.2)

/-- Only blank lines stand before the frames, and each frame is whole. -/
def IsProper (layout : Layout) : Prop :=
  ∀ p ∈ layout, (∀ l ∈ p.1, IsBlankLine l) ∧ p.2.IsWhole

theorem bytes_cons (p : List Bytes × Frame) (layout : Layout) :
    bytes (p :: layout) = p.1.flatten ++ p.2.bytes ++ bytes layout := rfl

/-- Frames with nothing between them. -/
def ofFrames (frames : List Frame) : Layout := frames.map fun f => ([], f)

theorem bytes_ofFrames (fs : List Frame) : (ofFrames fs).bytes = fs.flatMap Frame.bytes := by
  simp [ofFrames, bytes, List.flatMap_map]

theorem frames_ofFrames (fs : List Frame) : (ofFrames fs).frames = fs := by
  simp [ofFrames, frames, Function.comp_def]

theorem isProper_ofFrames {fs : List Frame} (h : ∀ f ∈ fs, f.IsWhole) : (ofFrames fs).IsProper := by
  intro p hp
  obtain ⟨f, hf, rfl⟩ := List.mem_map.mp hp
  exact ⟨List.forall_mem_nil _, h f hf⟩

end Layout

theorem isWhole_of_locate? {bs rest : Bytes} {f : Frame}
    (h : locate? (skipBlankLines bs) = some (f, rest)) : f.IsWhole := by
  have hown := locate?_own h []
  rw [List.append_nil] at hown
  exact ⟨hown, head_of_locate? h⟩

theorem IsWhole.locate? {f : Frame} (hf : f.IsWhole) {lines : List Bytes}
    (hlines : ∀ l ∈ lines, IsBlankLine l) (more : Bytes) :
    locate? (skipBlankLines (lines.flatten ++ f.bytes ++ more)) = some (f, more) ∧
      (blankLines (lines.flatten ++ f.bytes ++ more)).map Line.bytes = lines := by
  have hmore := locate?_own hf.located more
  have hskip := skipBlankLines_of_locate? hmore hf.head
  have hflatten := skipBlankLines_flatten hlines (f.bytes ++ more)
  rw [← List.append_assoc] at hflatten
  constructor
  · rw [hflatten.1, hskip.1]
    exact hmore
  · rw [hflatten.2, hskip.2]
    simp

end Wire.Frame

namespace Decoder

open Frame

variable {d : Decoder} {layout : Layout} {tail : Bytes}

theorem cut_bytes {f : Frame} (hf : f.IsWhole) (hsize : d.exceeded? f.size = none) :
    d.cut f.bytes = (.frame f, []) := by
  rw [cut_eq_frame_iff, (skipBlankLines_of_locate? hf.located hf.head).1]
  exact ⟨hf.located, hsize⟩

/-- A whole frame within the limit is all that its bytes give, and they are steady. -/
theorem harvest_bytes {f : Frame} (hf : f.IsWhole) (hsize : d.exceeded? f.size = none) :
    d.harvest f.bytes = ⟨[f], none, []⟩ ∧ d.isSteady f.bytes = true := by
  have hcut := cut_bytes hf hsize
  have hblank := (skipBlankLines_of_locate? hf.located hf.head).2
  have hnone := (skipBlankLines_none (Line.next?_eq_none_iff.mpr (List.not_mem_nil (a := 10)))).2
  constructor
  · rw [harvest_frame hcut, harvest_more (cut_nil d)]
  · rw [isSteady_frame hcut, isSteady_more (cut_nil d), fitsBlank, hblank, fitsBlank, hnone]
    rfl

theorem cut_layout {p : List Bytes × Frame} (hlayout : Layout.IsProper (p :: layout))
    (hsize : d.exceeded? p.2.size = none) (tail : Bytes) :
    d.cut (Layout.bytes (p :: layout) ++ tail) = (.frame p.2, layout.bytes ++ tail) ∧
      (blankLines (Layout.bytes (p :: layout) ++ tail)).map Line.bytes = p.1 := by
  obtain ⟨hlines, hf⟩ := hlayout p (by simp)
  obtain ⟨hlocate, hblank⟩ := hf.locate? hlines (layout.bytes ++ tail)
  rw [← List.append_assoc, ← Layout.bytes_cons] at hlocate hblank
  exact ⟨cut_eq_frame_iff.mpr ⟨hlocate, hsize⟩, hblank⟩

/-- **The frames of a layout are cut off in order**, and the bytes behind them give what they give
by themselves. -/
theorem harvest_layout (hlayout : layout.IsProper)
    (hsize : ∀ f ∈ layout.frames, d.exceeded? f.size = none) (tail : Bytes) :
    d.harvest (layout.bytes ++ tail) =
      ⟨layout.frames ++ (d.harvest tail).frames, (d.harvest tail).refused,
        (d.harvest tail).rest⟩ := by
  induction layout with
  | nil => rfl
  | cons p layout ih =>
    have hcut := (cut_layout hlayout (hsize p.2 (by simp [Layout.frames])) tail).1
    rw [harvest_frame hcut, ih (fun q hq => hlayout q (by simp [hq]))
      (fun f hm => hsize f (List.mem_cons_of_mem _ hm))]
    rfl

/-- Blank lines within the limit, their line feeds not counted, leave a stream steady. -/
theorem isSteady_layout (hlayout : layout.IsProper)
    (hsize : ∀ f ∈ layout.frames, d.exceeded? f.size = none)
    (hblank : ∀ p ∈ layout, ∀ l ∈ p.1, d.exceeded? (l.length - 1) = none)
    (htail : d.isSteady tail = true) : d.isSteady (layout.bytes ++ tail) = true := by
  induction layout with
  | nil => exact htail
  | cons p layout ih =>
    obtain ⟨hcut, hlines⟩ := cut_layout hlayout (hsize p.2 (by simp [Layout.frames])) tail
    -- the blank lines in front of the frame are those of the layout
    have hfits : d.fitsBlank (Layout.bytes (p :: layout) ++ tail) = true := by
      apply List.all_eq_true.mpr
      intro l hl
      have hmem : l.bytes ∈ p.1 := hlines ▸ List.mem_map_of_mem hl
      rw [hblank p (by simp) l.bytes hmem]
      rfl
    rw [isSteady_frame hcut, hfits, Bool.true_and]
    exact ih (fun q hq => hlayout q (by simp [hq]))
      (fun f hm => hsize f (List.mem_cons_of_mem _ hm)) (fun q hq => hblank q (by simp [hq]))

/-- Bytes within the limit that hold no complete frame are waited behind, in a steady stream. -/
theorem harvest_incomplete (htail : locate? (skipBlankLines tail) = none)
    (hsize : d.exceeded? tail.length = none) :
    d.harvest tail = ⟨[], none, skipBlankLines tail⟩ ∧ d.isSteady tail = true := by
  have within : ∀ {size}, size ≤ tail.length → d.exceeded? size = none := by
    intro size hle
    rw [exceeded?_eq_none_iff] at hsize ⊢
    intro limit hlimit
    exact Nat.le_trans hle (hsize limit hlimit)
  have hcut : d.cut tail = (.more, skipBlankLines tail) :=
    cut_eq_more_iff.mpr ⟨htail, within (length_skipBlankLines tail), rfl⟩
  refine ⟨harvest_more hcut, ?_⟩
  rw [isSteady_more hcut]
  apply List.all_eq_true.mpr
  intro l hl
  have hlen := congrArg List.length (blankLines_bytes tail)
  rw [List.length_append] at hlen
  have hmem : l.bytes.length ≤ ((blankLines tail).flatMap Line.bytes).length := by
    rw [List.flatMap_def]
    exact (List.sublist_flatten_of_mem (List.mem_map_of_mem hl)).length_le
  rw [within (by omega)]
  rfl

theorem harvest_blank {lines : List Bytes} (hlines : ∀ l ∈ lines, IsBlankLine l) (d : Decoder) :
    d.harvest lines.flatten = ⟨[], none, []⟩ := by
  have hskip := (skipBlankLines_flatten hlines []).1
  rw [List.append_nil] at hskip
  have hcut : d.cut lines.flatten = d.cut [] := by
    rw [← cut_skipBlankLines, hskip, cut_skipBlankLines]
  rw [harvest_congr hcut, harvest_more (cut_nil d)]

/-- Whoever asks for the messages of a layout gets one for each frame, and nothing is left. -/
theorem takeAll_layout {α : Type} {read : Frame → Except Failure α}
    (hread : ∀ f, isRefusal (read f) = false) (hlayout : layout.IsProper)
    (hsize : ∀ f ∈ layout.frames, d.exceeded? f.size = none) {last : List Bytes}
    (hlast : ∀ l ∈ last, IsBlankLine l) :
    d.takeAll read (layout.bytes ++ last.flatten) = (layout.frames.map read, []) := by
  rw [takeAll_eq_harvest hread, harvest_layout hlayout hsize, harvest_blank hlast]
  simp [Harvest.results]

/-- If each item is written as a whole frame that is read as some message, the messages of the
written items are taken one after another, whatever blank lines stand between them. -/
theorem takeAll_written {α β : Type} {read : Frame → Except Failure β}
    (hread : ∀ f, isRefusal (read f) = false) (frame : α → Frame) (seen : α → β)
    {pieces : List (List Bytes × α)} {last : List Bytes}
    (hframe : ∀ p ∈ pieces, (frame p.2).IsWhole ∧ read (frame p.2) = .ok (seen p.2))
    (hsize : ∀ p ∈ pieces, d.exceeded? (frame p.2).size = none)
    (hblank : ∀ p ∈ pieces, ∀ l ∈ p.1, IsBlankLine l) (hlast : ∀ l ∈ last, IsBlankLine l) :
    d.takeAll read ((pieces.flatMap fun p => p.1.flatten ++ (frame p.2).bytes) ++ last.flatten)
      = (pieces.map fun p => .ok (seen p.2), []) := by
  let layout : Layout := pieces.map fun p => (p.1, frame p.2)
  have hbytes : layout.bytes = pieces.flatMap fun p => p.1.flatten ++ (frame p.2).bytes := by
    simp only [layout, Layout.bytes, List.flatMap_map]
  have hlayout : layout.IsProper := by
    intro q hq
    obtain ⟨p, hp, rfl⟩ := List.mem_map.mp hq
    exact ⟨hblank p hp, (hframe p hp).1⟩
  have hfits : ∀ f ∈ layout.frames, d.exceeded? f.size = none := by
    intro f hf
    obtain ⟨q, hq, rfl⟩ := List.mem_map.mp hf
    obtain ⟨p, hp, rfl⟩ := List.mem_map.mp hq
    exact hsize p hp
  have hseen : layout.frames.map read = pieces.map fun p => .ok (seen p.2) := by
    rw [Layout.frames, List.map_map, List.map_map]
    apply List.map_congr_left
    intro p hp
    exact (hframe p hp).2
  rw [← hbytes, takeAll_layout hread hlayout hfits hlast, hseen]

end Decoder

/-- A whole frame is read the same alone as at the front of a stream. -/
theorem Decoder.takeOnly_bytes {α : Type} (read : Frame → Except Failure α) {f : Frame}
    (hf : f.IsWhole) : takeOnly read f.bytes = read f := by
  rw [takeOnly, take_frame (cut_bytes hf rfl)]
  cases read f <;> rfl

theorem Request.parse_bytes {f : Frame} (hf : f.IsWhole) : Request.parse f.bytes = f.toRequest :=
  Decoder.takeOnly_bytes Frame.toRequest hf

end Courier
