import Courier.Proofs.LabelText
import Courier.Proofs.SeriesTotals
import Mathlib.Data.List.Nodup

/-!
# Reports that can be read

A report is one line for each kind of family and one for each sample. After any updates each family
has each series once (`regular_afterAll`), so that the report tells all samples (`Regular.tells`),
and no two of them are of the same thing (`Regular.nodup_keys`).

Main statement: `report_unambiguous`.
-/

namespace Courier.Metrics

open Decimal

/-! ## The samples of families -/

def counterSamples (name : String) (s : Labels × UInt64) : List Sample :=
  [⟨name, s.1.pairs, digits s.2.toNat⟩]

def gaugeSamples (name : String) (s : Labels × Int64) : List Sample :=
  [⟨name, s.1.pairs, integer s.2.toInt⟩]

/-- The sample of a bucket: its bound is one more label, behind those of the series. -/
def bucketSample (name : String) (labels : Labels) (bound : String) (count : UInt64) : Sample :=
  ⟨name ++ "_bucket", labels.pairs ++ [("le", bound)], digits count.toNat⟩

/-- The samples of a histogram: its buckets each with its bound, and all observations, what they
come to, and their number again. -/
def histogramSamples (name : String) (s : Labels × Histogram) : List Sample :=
  List.zipWith (fun count bound => bucketSample name s.1 (numeral bound) count) s.2.buckets bounds
    ++ [bucketSample name s.1 "+Inf" s.2.count,
      ⟨name ++ "_sum", s.1.pairs, digits s.2.sum.toNat⟩,
      ⟨name ++ "_count", s.1.pairs, digits s.2.count.toNat⟩]

def samples (m : Metrics) : List Sample :=
  m.requests.flatMap (counterSamples requestsName)
    ++ m.decodeErrors.flatMap (counterSamples decodeErrorsName)
    ++ m.sessions.flatMap (gaugeSamples sessionsName)
    ++ m.durations.flatMap (histogramSamples durationsName)

theorem line_bucketSample (name : String) (labels : Labels) {bound : String}
    (h : Labels.escape bound.toList = bound.toList) (count : UInt64) :
    (bucketSample name labels bound count).line =
      bucketLine name.toList labels.render bound.toList count := by
  simp [bucketSample, Sample.line, bucketLine, Labels.render_concat, Labels.renderPair, h]

theorem escape_digits (n : Nat) : Labels.escape (digits n) = digits n := by
  apply Labels.escape_of_forall
  intro c hc
  exact of_mem_digits (p := fun c => c ≠ '\\' ∧ c ≠ '"' ∧ c ≠ '\n') (by decide) hc

theorem histogramLines_eq (name : String) (s : Labels × Histogram) :
    histogramLines name.toList s = (histogramSamples name s).map Sample.line := by
  have hbound : ∀ (count : UInt64) (bound : Nat),
      (bucketSample name s.1 (numeral bound) count).line =
        bucketLine name.toList s.1.render (digits bound) count := by
    intro count bound
    have htext : (numeral bound).toList = digits bound := String.toList_ofList
    rw [line_bucketSample, htext]
    rw [htext]
    exact escape_digits bound
  have hall : (bucketSample name s.1 "+Inf" s.2.count).line =
      bucketLine name.toList s.1.render "+Inf".toList s.2.count :=
    line_bucketSample name s.1 (by decide) s.2.count
  simp only [histogramLines, histogramSamples, List.map_append, List.map_zipWith, hbound,
    List.map_cons, hall, List.map_nil]
  simp only [Sample.line, String.toList_append]

theorem isPlainName_append {name suffix : String} (hname : Labels.isPlainName name = true)
    (hsuffix : Labels.isPlainName suffix = true) : Labels.isPlainName (name ++ suffix) = true := by
  unfold Labels.isPlainName at hname hsuffix ⊢
  rw [String.toList_append, List.all_append, hname, hsuffix]
  rfl

theorem feed_notMem_digits (n : Nat) : '\n' ∉ digits n := by
  intro h
  exact absurd (space_le_digits h) (by decide)

theorem feed_notMem_integer (i : Int) : '\n' ∉ integer i := by
  intro h
  exact absurd (space_le_integer h) (by decide)

section Plain

variable {name : String} (hname : Labels.isPlainName name = true)
include hname

theorem isPlain_counterSamples {s : Labels × UInt64} (h : s.1.IsPlain) :
    ∀ sample ∈ counterSamples name s, sample.IsPlain :=
  List.forall_mem_singleton.mpr ⟨hname, h, feed_notMem_digits _⟩

theorem isPlain_gaugeSamples {s : Labels × Int64} (h : s.1.IsPlain) :
    ∀ sample ∈ gaugeSamples name s, sample.IsPlain :=
  List.forall_mem_singleton.mpr ⟨hname, h, feed_notMem_integer _⟩

theorem isPlain_bucketSample {labels : Labels} (h : labels.IsPlain) (bound : String)
    (count : UInt64) : (bucketSample name labels bound count).IsPlain := by
  refine ⟨isPlainName_append hname (by decide), ?_, feed_notMem_digits _⟩
  intro p hp
  rcases List.mem_append.mp hp with hp | hp
  · exact h p hp
  · obtain rfl := List.mem_singleton.mp hp
    show Labels.isPlainName "le" = true
    decide

theorem isPlain_histogramSamples {s : Labels × Histogram} (h : s.1.IsPlain) :
    ∀ sample ∈ histogramSamples name s, sample.IsPlain := by
  intro sample hsample
  rcases List.mem_append.mp hsample with hsample | hsample
  · obtain ⟨i, hi, rfl⟩ := List.mem_iff_getElem.mp hsample
    rw [List.getElem_zipWith]
    exact isPlain_bucketSample hname h _ _
  · simp only [List.mem_cons, List.not_mem_nil, or_false] at hsample
    rcases hsample with rfl | rfl | rfl
    · exact isPlain_bucketSample hname h _ _
    · exact ⟨isPlainName_append hname (by decide), h, feed_notMem_digits _⟩
    · exact ⟨isPlainName_append hname (by decide), h, feed_notMem_digits _⟩

end Plain

/-! ## Lines that tell samples -/

/-- The lines tell the samples, which are plain: read back they are the samples, in whatever order,
and the lines that are no samples are these heads. Each of them is one line. -/
structure Tells (lines heads : List (List Char)) (samples : List Sample) : Prop where
  plain : ∀ s ∈ samples, s.IsPlain
  read : (lines.filterMap Sample.read).Perm samples
  heads : lines.filter (fun line => (Sample.read line).isNone) = heads
  feed : ∀ line ∈ lines, '\n' ∉ line

theorem Tells.append {lines lines' heads heads' : List (List Char)}
    {samples samples' : List Sample} (h : Tells lines heads samples)
    (h' : Tells lines' heads' samples') :
    Tells (lines ++ lines') (heads ++ heads') (samples ++ samples') := by
  refine ⟨?_, ?_, ?_, ?_⟩
  · intro s hs
    rcases List.mem_append.mp hs with hs | hs
    · exact h.plain s hs
    · exact h'.plain s hs
  · rw [List.filterMap_append]
    exact h.read.append h'.read
  · rw [List.filter_append, h.heads, h'.heads]
  · intro line hline
    rcases List.mem_append.mp hline with hline | hline
    · exact h.feed line hline
    · exact h'.feed line hline

theorem Tells.length {lines heads : List (List Char)} {samples : List Sample}
    (h : Tells lines heads samples) : lines.length = heads.length + samples.length := by
  rw [← h.heads, ← h.read.length_eq, ← List.countP_eq_length_filter,
    List.length_filterMap_eq_countP, Nat.add_comm]
  apply (List.length_eq_countP_add_countP fun line => (Sample.read line).isSome).trans
  congr 2
  funext line
  cases Sample.read line <;> rfl

theorem tells_of_perm {lines : List (List Char)} {samples : List Sample}
    (hplain : ∀ s ∈ samples, s.IsPlain) (h : lines.Perm (samples.map Sample.line)) :
    Tells lines [] samples := by
  have hread : ∀ s ∈ samples, Sample.read s.line = some s := by
    intro s hs
    exact Sample.read_line (hplain s hs)
  have hline : ∀ line ∈ lines, ∃ s ∈ samples, s.line = line := by
    intro line hline
    exact List.mem_map.mp (h.mem_iff.mp hline)
  refine ⟨hplain, ?_, ?_, ?_⟩
  · refine (h.filterMap Sample.read).trans ?_
    rw [List.filterMap_map]
    exact .of_eq ((List.filterMap_congr hread).trans List.filterMap_some)
  · apply List.filter_eq_nil_iff.mpr
    intro line hmem
    obtain ⟨s, hs, rfl⟩ := hline line hmem
    rw [hread s hs]
    exact Bool.false_ne_true
  · intro line hmem
    obtain ⟨s, hs, rfl⟩ := hline line hmem
    exact Sample.feed_notMem_line (hplain s hs)

/-- The line with the name and the kind of a family. -/
def kindLine (name kind : String) : List Char := ("# TYPE " ++ name ++ " " ++ kind).toList

theorem tells_kindLine {name kind : String} (h : '\n' ∉ kindLine name kind) :
    Tells [kindLine name kind] [kindLine name kind] [] := by
  have hread : Sample.read (kindLine name kind) = none := by
    simp [kindLine, Sample.read, Labels.isNameChar]
  refine ⟨List.forall_mem_nil _, ?_, ?_, List.forall_mem_singleton.mpr h⟩
  · rw [List.filterMap_cons_none hread]
    rfl
  · rw [List.filter_cons, hread]
    rfl

/-- A family is written as its head and all its samples. -/
theorem tells_familyLines {α : Type} {kind name : String}
    {seriesLines : List Char → Labels × α → List (List Char)}
    {samplesOf : Labels × α → List Sample} {f : Family α} (hhead : '\n' ∉ kindLine name kind)
    (hlines : ∀ s, seriesLines name.toList s = (samplesOf s).map Sample.line)
    (hplain : ∀ s ∈ f, ∀ sample ∈ samplesOf s, sample.IsPlain) :
    Tells (familyLines kind seriesLines name f) [kindLine name kind] (f.flatMap samplesOf) := by
  have hperm : ((f.map (seriesLines name.toList)).mergeSort blockLe).flatten.Perm
      ((f.flatMap samplesOf).map Sample.line) := by
    refine (List.mergeSort_perm _ _).flatten.trans ?_
    rw [List.map_flatMap, ← List.flatMap_def]
    exact List.Perm.of_eq (List.flatMap_congr fun s _ => hlines s)
  have hall : ∀ sample ∈ f.flatMap samplesOf, sample.IsPlain := by
    intro sample hsample
    obtain ⟨s, hs, hmem⟩ := List.mem_flatMap.mp hsample
    exact hplain s hs sample hmem
  exact (tells_kindLine hhead).append (tells_of_perm hall hperm)

/-- Text of lines with a line feed behind each is divided at its line feeds into these lines. -/
theorem splitOn_flatMap_concat {lines : List (List Char)} (h : ∀ line ∈ lines, '\n' ∉ line) :
    (lines.flatMap (· ++ ['\n'])).splitOn '\n' = lines ++ [[]] := by
  induction lines with
  | nil => rfl
  | cons line lines ih =>
    obtain ⟨hline, hlines⟩ := List.forall_mem_cons.mp h
    rw [List.flatMap_cons, List.append_assoc, List.singleton_append,
      List.splitOn_append_cons_self_of_not_mem hline, ih hlines]
    rfl

/-! ## Updates -/

/-- One update of the series of a server, under labels in any order. -/
inductive Update where
  | request (labels : List (String × String)) (n : UInt64)
  | decodeError (labels : List (String × String)) (n : UInt64)
  | session (labels : List (String × String)) (n : Int64)
  | duration (labels : List (String × String)) (nanos : Nat)

def Update.labels : Update → List (String × String)
  | .request labels _ => labels
  | .decodeError labels _ => labels
  | .session labels _ => labels
  | .duration labels _ => labels

def apply (m : Metrics) : Update → Metrics
  | .request labels n => { m with requests := addTo (.ofList labels) n m.requests }
  | .decodeError labels n => { m with decodeErrors := addTo (.ofList labels) n m.decodeErrors }
  | .session labels n => { m with sessions := shift (.ofList labels) n m.sessions }
  | .duration labels nanos => { m with durations := observe (.ofList labels) nanos m.durations }

/-- What a server has after some updates. -/
def afterAll (updates : List Update) : Metrics := updates.foldl apply {}

/-- Four families of which reports can be made. -/
structure Regular (m : Metrics) : Prop where
  requests : Family.Among Labels.IsPlain m.requests
  decodeErrors : Family.Among Labels.IsPlain m.decodeErrors
  sessions : Family.Among Labels.IsPlain m.sessions
  durations : Family.Among Labels.IsPlain m.durations
  buckets : ∀ s ∈ m.durations, s.2.buckets.length = bounds.length

theorem Histogram.length_observe {h : Histogram} (hlength : h.buckets.length = bounds.length)
    (nanos : Nat) : (h.observe nanos).buckets.length = bounds.length := by
  rw [Histogram.observe, List.length_zipWith, hlength, Nat.min_self]

theorem Regular.apply {m : Metrics} (h : Regular m) {update : Update}
    (hplain : ∀ p ∈ update.labels, Labels.isPlainName p.1 = true) : Regular (m.apply update) := by
  have hplain : Labels.IsPlain (.ofList update.labels) := Labels.isPlain_ofList hplain
  cases update with
  | request labels n => exact { h with requests := h.requests.update hplain _ _ }
  | decodeError labels n => exact { h with decodeErrors := h.decodeErrors.update hplain _ _ }
  | session labels n => exact { h with sessions := h.sessions.update hplain _ _ }
  | duration labels nanos =>
    have hbuckets : ∀ s ∈ observe (.ofList labels) nanos m.durations,
        s.2.buckets.length = bounds.length :=
      Family.forall_mem_update (p := fun a : Histogram => a.buckets.length = bounds.length) rfl
        (fun _ ha => Histogram.length_observe ha nanos) _ h.buckets
    exact { h with durations := h.durations.update hplain _ _, buckets := hbuckets }

theorem regular_afterAll {updates : List Update}
    (hplain : ∀ u ∈ updates, ∀ p ∈ u.labels, Labels.isPlainName p.1 = true) :
    Regular (afterAll updates) := by
  suffices h : ∀ m : Metrics, Regular m → Regular (updates.foldl apply m) by
    exact h {} ⟨Family.among_nil _, Family.among_nil _, Family.among_nil _, Family.among_nil _,
      fun _ hs => nomatch hs⟩
  induction updates with
  | nil => exact fun _ hm => hm
  | cons u updates ih =>
    obtain ⟨hu, hupdates⟩ := List.forall_mem_cons.mp hplain
    exact fun m hm => ih hupdates _ (hm.apply hu)

/-! ## Reports of regular families -/

namespace Regular

variable {m : Metrics} (h : Regular m)
include h

/-- **A report tells the samples of all families** under the heads of the families. -/
theorem tells : Tells m.lines
    [kindLine requestsName "counter", kindLine decodeErrorsName "counter",
      kindLine sessionsName "gauge", kindLine durationsName "histogram"] m.samples := by
  have hplain : ∀ {α : Type} {f : Family α} {samplesOf : Labels × α → List Sample},
      Family.Among Labels.IsPlain f →
      (∀ s, s.1.IsPlain → ∀ sample ∈ samplesOf s, sample.IsPlain) →
      ∀ s ∈ f, ∀ sample ∈ samplesOf s, sample.IsPlain := by
    intro α f samplesOf hf hsamples s hs
    exact hsamples s (hf.kind s.1 (List.mem_map_of_mem hs))
  have hrequests : Tells (familyLines "counter" counterLines requestsName m.requests) _ _ :=
    tells_familyLines (by decide) (fun _ => rfl)
      (hplain h.requests fun _ => isPlain_counterSamples (by decide))
  have hdecodeErrors : Tells (familyLines "counter" counterLines decodeErrorsName m.decodeErrors)
      _ _ :=
    tells_familyLines (by decide) (fun _ => rfl)
      (hplain h.decodeErrors fun _ => isPlain_counterSamples (by decide))
  have hsessions : Tells (familyLines "gauge" gaugeLines sessionsName m.sessions) _ _ :=
    tells_familyLines (by decide) (fun _ => rfl)
      (hplain h.sessions fun _ => isPlain_gaugeSamples (by decide))
  have hdurations : Tells (familyLines "histogram" histogramLines durationsName m.durations) _ _ :=
    tells_familyLines (by decide) (histogramLines_eq durationsName)
      (hplain h.durations fun _ => isPlain_histogramSamples (by decide))
  exact ((hrequests.append hdecodeErrors).append hsessions).append hdurations

end Regular

/-! ## Distinct series -/

def Sample.key (s : Sample) : String × List (String × String) := (s.name, s.labels)

theorem Sample.nodup_series {samples : List Sample} (hplain : ∀ s ∈ samples, s.IsPlain)
    (h : (samples.map Sample.key).Nodup) : (samples.map Sample.series).Nodup := by
  refine List.pairwise_map.mpr ((List.pairwise_map.mp h).imp_of_mem ?_)
  intro s t hs ht hne heq
  obtain ⟨hname, hlabels⟩ := Sample.series_inj (hplain s hs) (hplain t ht) heq
  exact hne (Prod.ext hname hlabels)

def histogramKeys (labels : Labels) : List (String × List (String × String)) :=
  ((bounds.map numeral ++ ["+Inf"]).map fun bound =>
      (durationsName ++ "_bucket", labels.pairs ++ [("le", bound)]))
    ++ [(durationsName ++ "_sum", labels.pairs), (durationsName ++ "_count", labels.pairs)]

theorem key_histogramSamples {s : Labels × Histogram} (h : s.2.buckets.length = bounds.length) :
    (histogramSamples durationsName s).map Sample.key = histogramKeys s.1 := by
  have hbuckets : List.zipWith
      (fun (_ : UInt64) bound =>
        (durationsName ++ "_bucket", s.1.pairs ++ [("le", numeral bound)])) s.2.buckets bounds =
      bounds.map fun bound =>
        (durationsName ++ "_bucket", s.1.pairs ++ [("le", numeral bound)]) := by
    have hbounds := List.map_snd_zip (Nat.le_of_eq h.symm)
    conv_rhs => rw [← hbounds, List.map_map]
    exact List.map_uncurry_zip_eq_zipWith.symm
  simp only [histogramSamples, histogramKeys, bucketSample, Sample.key, List.map_append,
    List.map_zipWith, List.map_map, List.map_cons, List.map_nil, hbuckets, Function.comp_def,
    List.append_assoc, List.cons_append, List.nil_append]

theorem numeral_injective : Function.Injective numeral := by
  intro a b h
  have hdigits := congrArg (fun s => ofDigits? s.toList) h
  simpa [numeral, ofDigits_digits] using hdigits

/-- The buckets have distinct bounds, of which the last is no number. -/
theorem nodup_bucketBounds : (bounds.map numeral ++ ["+Inf"]).Nodup := by
  have hbounds : bounds.Nodup := by decide
  refine List.nodup_append.mpr ⟨hbounds.map numeral_injective, List.nodup_singleton _, ?_⟩
  intro a ha b hb heq
  obtain ⟨bound, -, rfl⟩ := List.mem_map.mp ha
  obtain rfl := List.mem_singleton.mp hb
  have hplus : '+' ∈ digits bound := by
    rw [← String.toList_ofList (l := digits bound)]
    show '+' ∈ (numeral bound).toList
    rw [heq]
    decide
  exact of_mem_digits (p := (· ≠ '+')) (by decide) hplus rfl

theorem nodup_histogramKeys (labels : Labels) : (histogramKeys labels).Nodup := by
  refine List.nodup_append.mpr ⟨nodup_bucketBounds.map ?_, ?_, ?_⟩
  · intro a b heq
    have hle := List.append_cancel_left (congrArg Prod.snd heq)
    exact congrArg Prod.snd (List.singleton_inj.mp hle)
  · have hne : durationsName ++ "_sum" ≠ durationsName ++ "_count" := by decide
    simp [hne]
  · intro a ha b hb heq
    obtain ⟨bound, -, rfl⟩ := List.mem_map.mp ha
    have hsum : durationsName ++ "_bucket" ≠ durationsName ++ "_sum" := by decide
    have hcount : durationsName ++ "_bucket" ≠ durationsName ++ "_count" := by decide
    simp only [List.mem_cons, List.not_mem_nil, or_false] at hb
    rcases hb with rfl | rfl
    · exact hsum (congrArg Prod.fst heq)
    · exact hcount (congrArg Prod.fst heq)

/-- The labels of a histogram are told by any of its keys. -/
theorem labels_of_mem_histogramKeys {labels : Labels} {key : String × List (String × String)}
    (h : key ∈ histogramKeys labels) :
    labels.pairs = if key.1 = durationsName ++ "_bucket" then key.2.dropLast else key.2 := by
  have hsum : durationsName ++ "_sum" ≠ durationsName ++ "_bucket" := by decide
  have hcount : durationsName ++ "_count" ≠ durationsName ++ "_bucket" := by decide
  rcases List.mem_append.mp h with h | h
  · obtain ⟨bound, -, rfl⟩ := List.mem_map.mp h
    rw [if_pos rfl, List.dropLast_concat]
  · simp only [List.mem_cons, List.not_mem_nil, or_false] at h
    rcases h with rfl | rfl
    · rw [if_neg hsum]
    · rw [if_neg hcount]

/-- All keys are distinct, and have these names. -/
structure Distinct (names : List String) (keys : List (String × List (String × String))) :
    Prop where
  nodup : keys.Nodup
  name : ∀ key ∈ keys, key.1 ∈ names

theorem Distinct.append {names names' : List String}
    {keys keys' : List (String × List (String × String))} (h : Distinct names keys)
    (h' : Distinct names' keys') (hnames : ∀ name ∈ names, name ∉ names') :
    Distinct (names ++ names') (keys ++ keys') := by
  constructor
  · refine List.nodup_append.mpr ⟨h.nodup, h'.nodup, ?_⟩
    rintro key hkey _ hkey' rfl
    exact hnames _ (h.name key hkey) (h'.name key hkey')
  · intro key hkey
    rcases List.mem_append.mp hkey with hkey | hkey
    · exact List.mem_append_left _ (h.name key hkey)
    · exact List.mem_append_right _ (h'.name key hkey)

/-- The keys of a family are distinct if those of each series are, and tell its labels. -/
theorem distinct_family {α : Type} {f : Family α} (hf : Family.Among Labels.IsPlain f)
    {samplesOf : Labels × α → List Sample} {names : List String}
    (keysOf : Labels → List (String × List (String × String)))
    (hkeys : ∀ s ∈ f, (samplesOf s).map Sample.key = keysOf s.1)
    (hown : ∀ labels, Distinct names (keysOf labels))
    (htold : ∀ labels other key, key ∈ keysOf labels → key ∈ keysOf other →
      labels.pairs = other.pairs) :
    Distinct names ((f.flatMap samplesOf).map Sample.key) := by
  have hall : (f.flatMap samplesOf).map Sample.key = (Family.touched f).flatMap keysOf := by
    rw [List.map_flatMap, Family.touched, List.flatMap_map]
    exact List.flatMap_congr hkeys
  rw [hall]
  constructor
  · refine List.nodup_flatMap.mpr ⟨fun labels _ => (hown labels).nodup, hf.once.imp ?_⟩
    intro labels other hne key hkey hkey'
    have hpairs := htold labels other key hkey hkey'
    exact hne (congrArg Labels.mk hpairs)
  · intro key hkey
    obtain ⟨labels, -, hmem⟩ := List.mem_flatMap.mp hkey
    exact (hown labels).name key hmem

theorem distinct_single {α : Type} {f : Family α} (hf : Family.Among Labels.IsPlain f)
    {name : String} (samplesOf : Labels × α → List Sample)
    (hkeys : ∀ s, (samplesOf s).map Sample.key = [(name, s.1.pairs)]) :
    Distinct [name] ((f.flatMap samplesOf).map Sample.key) := by
  apply distinct_family hf fun labels => [(name, labels.pairs)]
  · exact fun s _ => hkeys s
  · intro labels
    exact ⟨List.nodup_singleton _, List.forall_mem_singleton.mpr List.mem_cons_self⟩
  · intro labels other key hkey hkey'
    obtain rfl := List.mem_singleton.mp hkey
    exact congrArg Prod.snd (List.mem_singleton.mp hkey')

theorem distinct_histograms {f : Family Histogram} (hf : Family.Among Labels.IsPlain f)
    (hbuckets : ∀ s ∈ f, s.2.buckets.length = bounds.length) :
    Distinct
      [durationsName ++ "_bucket", durationsName ++ "_sum", durationsName ++ "_count"]
      ((f.flatMap (histogramSamples durationsName)).map Sample.key) := by
  apply distinct_family hf histogramKeys
  · exact fun s hs => key_histogramSamples (hbuckets s hs)
  · intro labels
    refine ⟨nodup_histogramKeys labels, ?_⟩
    intro key hkey
    rcases List.mem_append.mp hkey with hkey | hkey
    · obtain ⟨bound, -, rfl⟩ := List.mem_map.mp hkey
      exact List.mem_cons_self
    · simp only [List.mem_cons, List.not_mem_nil, or_false] at hkey
      rcases hkey with rfl | rfl <;> simp
  · intro labels other key hkey hkey'
    rw [labels_of_mem_histogramKeys hkey, labels_of_mem_histogramKeys hkey']

theorem Regular.nodup_keys {m : Metrics} (h : Regular m) : (m.samples.map Sample.key).Nodup := by
  have hrequests := distinct_single h.requests (counterSamples requestsName) fun _ => rfl
  have hdecodeErrors :=
    distinct_single h.decodeErrors (counterSamples decodeErrorsName) fun _ => rfl
  have hsessions := distinct_single h.sessions (gaugeSamples sessionsName) fun _ => rfl
  have hdurations := distinct_histograms h.durations h.buckets
  have hall := ((hrequests.append hdecodeErrors (by decide)).append hsessions (by decide)).append
    hdurations (by decide)
  rw [← List.map_append, ← List.map_append, ← List.map_append] at hall
  exact hall.nodup

theorem Regular.length_samples {m : Metrics} (h : Regular m) :
    m.samples.length =
      m.requests.length + m.decodeErrors.length + m.sessions.length + 12 * m.durations.length := by
  have htwelve : ∀ s ∈ m.durations, (histogramSamples durationsName s).length = 12 := by
    intro s hs
    rw [histogramSamples, List.length_append, List.length_zipWith, h.buckets s hs]
    rfl
  have hdurations : (m.durations.flatMap (histogramSamples durationsName)).length =
      12 * m.durations.length := by
    rw [List.length_flatMap, List.map_congr_left htwelve, List.map_const', List.sum_replicate_nat,
      Nat.mul_comm]
  simp only [samples, List.length_append, hdurations]
  simp [List.length_flatMap, counterSamples, gaugeSamples]

/-- **A report can be read whatever the labels hold.** After any updates under plain names, with any
values: the report is divided at its line feeds into the lines that were written. All of them but
four, which tell the names and kinds of the families, read back as samples: one of each counter and
gauge and twelve of each histogram, with the values of all labels. No two samples have the same text
before their numbers. A value is escaped by replacing backslashes, then quotes, then line feeds, and
two values are never escaped alike. -/
theorem report_unambiguous (updates : List Update)
    (hplain : ∀ u ∈ updates, ∀ p ∈ u.labels, Labels.isPlainName p.1 = true) :
    let m := afterAll updates
    m.render.splitOn '\n' = m.lines ++ [[]] ∧
      (m.lines.filter fun line => (Sample.read line).isNone) =
        ["# TYPE cmit_requests_total counter", "# TYPE cmit_decode_errors_total counter",
          "# TYPE cmit_sessions_active gauge",
          "# TYPE cmit_dispatch_duration_micros histogram"].map String.toList ∧
      (m.lines.filterMap Sample.read).Perm m.samples ∧
      m.lines.length =
        4 + (m.requests.length + m.decodeErrors.length + m.sessions.length +
          12 * m.durations.length) ∧
      (m.samples.map Sample.series).Nodup ∧
      (∀ v, Labels.escape v =
        Labels.replaceAll '\n' ['\\', 'n']
          (Labels.replaceAll '"' ['\\', '"'] (Labels.replaceAll '\\' ['\\', '\\'] v))) ∧
      ∀ v w, Labels.escape v = Labels.escape w ↔ v = w := by
  intro m
  have hregular : Regular m := regular_afterAll hplain
  have htells := hregular.tells
  refine ⟨splitOn_flatMap_concat htells.feed, ?_, htells.read, ?_,
    Sample.nodup_series htells.plain hregular.nodup_keys, Labels.escape_eq_replaceAll,
    fun _ _ => Labels.escape_inj⟩
  · rw [htells.heads]
    decide
  · rw [htells.length, hregular.length_samples]
    rfl

/-- A value that tries to end its label and its line, beside the labels that it tries to look like.
-/
theorem report_unambiguous_forged_label :
    let updates : List Update :=
      [.request [("verb", "A\",status=\"ok\"\x7d 1\n")] 1,
        .request [("status", "ok"), ("verb", "A")] 2, .duration [("verb", "\\n")] 700000,
        .duration [("verb", "\n")] 700000]
    let m := afterAll updates
    (∀ u ∈ updates, ∀ p ∈ u.labels, Labels.isPlainName p.1 = true) ∧
      m.render.splitOn '\n' = m.lines ++ [[]] ∧ m.lines.length = 30 ∧
      (m.lines.filterMap Sample.read).length = 26 ∧ (m.samples.map Sample.series).Nodup := by
  intro updates m
  have hplain : ∀ u ∈ updates, ∀ p ∈ u.labels, Labels.isPlainName p.1 = true := by decide
  obtain ⟨hsplit, -, hread, hlength, hnodup, -, -⟩ := report_unambiguous updates hplain
  have hrequests : m.requests.length = 2 := by
    have hne : Labels.ofList [("verb", "A\",status=\"ok\"\x7d 1\n")] ≠
        Labels.ofList [("status", "ok"), ("verb", "A")] := by
      rw [Ne, Labels.ofList_eq_iff]
      decide
    show (Family.update _ 0 _ [(_, _)]).length = 2
    rw [Family.update, if_neg hne]
    rfl
  have hdurations : m.durations.length = 2 := by decide +kernel
  have hsamples : m.samples.length = 2 + 0 + 0 + 12 * 2 := by
    rw [(regular_afterAll hplain).length_samples, hrequests, hdurations]
    rfl
  refine ⟨hplain, hsplit, hlength.trans ?_, hread.length_eq.trans hsamples, hnodup⟩
  rw [hrequests, hdurations]
  rfl

end Courier.Metrics
