import Courier.Proofs.MessageInverse

/-!
# Where a written frame ends

A written request ends with its own last byte, whatever its envelope holds: strings and keys with
any characters, numbers of any kind, a payload deeper than the JSON reader goes. The boundary is a
matter of lines, and the body is one line of which the reader of frames asks only that it is not
blank. So nothing behind the frame is taken with it, and nothing of it is taken before it is
complete.

Main statement: `takeRequest_encode`.
-/

namespace Courier

open Text Wire Frame

namespace Wire.Frame

/-- What comes before the last byte of a whole frame holds no frame, and no blank line in front. -/
theorem incomplete_of_isWhole {f : Frame} (hf : f.IsWhole) {front more : Bytes}
    (hbytes : front ++ more = f.bytes) (hmore : more ≠ []) :
    locate? front = none ∧ skipBlankLines front = front := by
  constructor
  · have hlength := List.length_pos_iff.mpr hmore
    apply local_locate?.eq_none_of_prefix hf.located ⟨more, hbytes⟩
    rw [← hbytes, List.length_append, List.length_nil]
    omega
  · have hnone := (skipBlankLines_of_locate? hf.located hf.head).2
    rw [← hbytes, (skipBlankLines_append front more).2, List.append_eq_nil_iff] at hnone
    simpa [hnone.1] using blankLines_bytes front

end Wire.Frame

namespace Decoder

variable {α : Type} {d : Decoder} {f : Frame} {front more : Bytes}

/-- A whole frame is taken with its own bytes and no others. -/
theorem take_bytes_append (read : Frame → Except Failure α) (hf : f.IsWhole)
    (hsize : d.exceeded? f.size = none) (more : Bytes) :
    d.take read (f.bytes ++ more) = ((read f).map some, more) := by
  have hlocate := (hf.locate? (List.forall_mem_nil _) more).1
  exact take_frame (cut_eq_frame_iff.mpr ⟨hlocate, hsize⟩)

theorem take_incomplete (read : Frame → Except Failure α) (hf : f.IsWhole)
    (hbytes : front ++ more = f.bytes) (hmore : more ≠ [])
    (hsize : d.exceeded? front.length = none) : d.take read front = (.ok none, front) := by
  obtain ⟨hlocate, hskip⟩ := incomplete_of_isWhole hf hbytes hmore
  exact take_more (cut_eq_more_iff.mpr ⟨by rw [hskip, hlocate], by rw [hskip, hsize], hskip.symm⟩)

theorem takeAll_bytes_append {read : Frame → Except Failure α}
    (hread : ∀ f, isRefusal (read f) = false) {frames : List Frame}
    (hframes : ∀ f ∈ frames, f.IsWhole ∧ d.exceeded? f.size = none) (more : Bytes) :
    d.takeAll read (frames.flatMap Frame.bytes ++ more) =
      (frames.map read ++ (d.takeAll read more).1, (d.takeAll read more).2) := by
  have hproper := Layout.isProper_ofFrames fun f hf => (hframes f hf).1
  have hsize : ∀ f ∈ (Layout.ofFrames frames).frames, d.exceeded? f.size = none := by
    intro f hf
    rw [Layout.frames_ofFrames] at hf
    exact (hframes f hf).2
  rw [takeAll_eq_harvest hread, takeAll_eq_harvest hread, ← Layout.bytes_ofFrames,
    harvest_layout hproper hsize, Layout.frames_ofFrames]
  simp [Harvest.results]

end Decoder

namespace Request

variable {r : Request}

theorem takeRequest_encode_append (hverb : IsWord r.verb.toList)
    (hversion : IsWord r.version.toList) (more : Bytes) :
    Decoder.unlimited.takeRequest (r.encode ++ more) = ((parse r.encode).map some, more) := by
  have hwhole := isWhole_frame_of_isWord hverb hversion
  rw [← bytes_frame, parse_bytes hwhole]
  exact Decoder.take_bytes_append toRequest hwhole rfl more

/-- **The boundary of a written request does not depend on what it carries.** Let its verb and its
version be words, and its envelope anything at all. Without a limit, one call on its bytes and any
others behind them leaves exactly these others, whether the body can be read or not, and gives what
the bytes of the request give by themselves. On any part at the front that is not all of them a call
gives nothing and leaves the part as it is. So behind any number of such requests the calls go on
with the bytes that follow, as if nothing had come before. -/
theorem takeRequest_encode (hverb : IsWord r.verb.toList) (hversion : IsWord r.version.toList) :
    (∀ more, Decoder.unlimited.takeRequest (r.encode ++ more) =
      ((parse r.encode).map some, more)) ∧
    (∀ front, front <+: r.encode → front ≠ r.encode →
      Decoder.unlimited.takeRequest front = (.ok none, front)) ∧
    ∀ earlier : List Request,
      (∀ s ∈ earlier, IsWord s.verb.toList ∧ IsWord s.version.toList) → ∀ more,
      Decoder.unlimited.takeAll toRequest (earlier.flatMap encode ++ (r.encode ++ more)) =
        (earlier.map (fun s => parse s.encode) ++
            parse r.encode :: (Decoder.unlimited.takeAll toRequest more).1,
          (Decoder.unlimited.takeAll toRequest more).2) := by
  refine ⟨takeRequest_encode_append hverb hversion, ?_, ?_⟩
  · rintro front ⟨rest, hbytes⟩ hne
    have hrest : rest ≠ [] := by
      rintro rfl
      exact hne (by rw [← hbytes, List.append_nil])
    rw [← bytes_frame] at hbytes
    exact Decoder.take_incomplete toRequest (isWhole_frame_of_isWord hverb hversion) hbytes hrest
      rfl
  · intro earlier hearlier more
    have hwhole : ∀ s ∈ earlier ++ [r], s.frame.IsWhole := by
      intro s hs
      rcases List.mem_append.mp hs with hs | hs
      · exact isWhole_frame_of_isWord (hearlier s hs).1 (hearlier s hs).2
      · obtain rfl := List.mem_singleton.mp hs
        exact isWhole_frame_of_isWord hverb hversion
    have hframes : ∀ f ∈ (earlier ++ [r]).map frame,
        f.IsWhole ∧ Decoder.unlimited.exceeded? f.size = none := by
      intro f hf
      obtain ⟨s, hs, rfl⟩ := List.mem_map.mp hf
      exact ⟨hwhole s hs, rfl⟩
    have hread : ((earlier ++ [r]).map frame).map toRequest =
        (earlier ++ [r]).map fun s => parse s.encode := by
      rw [List.map_map]
      apply List.map_congr_left
      intro s hs
      rw [← bytes_frame, parse_bytes (hwhole s hs)]
      rfl
    have htake := Decoder.takeAll_bytes_append Decoder.isRefusal_toRequest hframes more
    rw [hread, List.flatMap_map] at htake
    simpa [bytes_frame] using htake

/-- A payload of 130 lists, each in the next, which the JSON reader refuses: behind it the request
that follows is read, and without its last byte nothing is. -/
theorem takeRequest_encode_deep :
    let deep := (List.range 130).foldl (fun v _ => Json.Value.array [v]) .null
    let r : Request := ⟨"PING", "1.0", ⟨none, none, "t\n\n", some deep⟩⟩
    let next : Request := ⟨"POLL", "1.0", ⟨none, none, "u", none⟩⟩
    ((parse r.encode).toOption.isNone = true ∧
        Decoder.unlimited.takeRequest (r.encode ++ next.encode) =
          ((parse r.encode).map some, next.encode)) ∧
      Decoder.unlimited.takeRequest r.encode.dropLast = (.ok none, r.encode.dropLast) ∧
      (Decoder.unlimited.takeAll toRequest (r.encode ++ next.encode)).1 =
        [parse r.encode, parse next.encode] := by
  intro deep r next
  have hverb : IsWord r.verb.toList := isWord_of_isToken (by decide)
  have hversion : IsWord r.version.toList := isWord_of_isToken (by decide)
  have hnext : IsWord next.verb.toList := isWord_of_isToken (by decide)
  obtain ⟨hafter, hbefore, -⟩ := takeRequest_encode hverb hversion
  obtain ⟨-, -, hall⟩ := takeRequest_encode (r := next) hnext hversion
  refine ⟨⟨by decide +kernel, hafter next.encode⟩, ?_, ?_⟩
  · apply hbefore
    · exact List.dropLast_prefix _
    · intro heq
      have := congrArg List.length heq
      have hpos : 0 < r.encode.length := by decide +kernel
      rw [List.length_dropLast] at this
      omega
  · have htake := hall [r] (by simpa using ⟨hverb, hversion⟩) []
    rw [List.append_nil] at htake
    have hnone : Decoder.unlimited.takeAll toRequest [] = ([], []) :=
      Decoder.takeAll_none (Decoder.take_more (Decoder.cut_nil _))
    rw [hnone] at htake
    simpa using congrArg Prod.fst htake

end Request

end Courier
