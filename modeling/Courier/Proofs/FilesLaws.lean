import Courier.Proofs.KernelLaws

/-!
# Files in memory keep the laws

A path is walked through directories only, so that what does not take a directory away leaves every
path where it led (`place?_of_keeps`). With this the calls of `Files.kernel` mean what they must
(`Files.laws`). The directories above a path are its fronts: split again, the text of each has the
first names on the way (`names_join`), and a way goes through all its fronts
(`isDirectory_of_isFront`).
-/

namespace Courier.Files

variable {fs fs' : Files} {location target : Location} {node : Node} {path : String}

/-! ## What stands where -/

theorem ne_nil_of_get? (h : fs.get? location = some node) (hnode : node ≠ .directory) :
    location ≠ [] := by
  rintro rfl
  exact hnode (Option.some.inj h).symm

theorem get?_erase (fs : Files) (h : location ≠ []) : (fs.erase location).get? location = none := by
  rw [get?, if_neg h, erase, List.find?_eq_none.mpr, Option.map_none]
  intro n hn
  have hne := (List.mem_filter.mp hn).2
  simpa using hne

theorem get?_erase_of_ne (fs : Files) {other : Location} (h : other ≠ location) :
    (fs.erase location).get? other = fs.get? other := by
  have hfind : (fs.nodes.filter (·.1 ≠ location)).find? (·.1 = other) =
      fs.nodes.find? (·.1 = other) := by
    rw [List.find?_filter]
    congr 1
    funext n
    by_cases heq : n.1 = other
    · simp [heq, h]
    · simp [heq]
  rw [get?, get?, erase]
  simp only [hfind]

theorem get?_put (fs : Files) (h : location ≠ []) :
    (fs.put location node).get? location = some node := by
  rw [get?, if_neg h, put, List.find?_cons_of_pos (by simp), Option.map_some]

theorem get?_put_of_ne (fs : Files) {other : Location} (h : other ≠ location) :
    (fs.put location node).get? other = fs.get? other := by
  rw [← get?_erase_of_ne fs h, get?, get?, put, List.find?_cons_of_neg (by simpa using h.symm)]

/-! ## Walking -/

/-- Directories stay, and so does where relative paths start. -/
structure Keeps (fs fs' : Files) : Prop where
  current : fs'.current = fs.current
  directory : ∀ location, fs.get? location = some .directory → fs'.get? location = some .directory

/-- What is done at a place where no directory stands leaves directories where they are. -/
theorem keeps_of_rest (hcurrent : fs'.current = fs.current)
    (hplace : fs.get? location ≠ some .directory)
    (hrest : ∀ other, other ≠ location → fs'.get? other = fs.get? other) : Keeps fs fs' := by
  refine ⟨hcurrent, ?_⟩
  intro other hother
  have hne : other ≠ location := by
    rintro rfl
    exact hplace hother
  rw [hrest other hne, hother]

theorem keeps_put (hplace : fs.get? location ≠ some .directory) :
    Keeps fs (fs.put location node) :=
  keeps_of_rest rfl hplace fun _ hne => get?_put_of_ne fs hne

theorem keeps_erase (hplace : fs.get? location ≠ some .directory) :
    Keeps fs (fs.erase location) :=
  keeps_of_rest rfl hplace fun _ hne => get?_erase_of_ne fs hne

theorem step_ok {name : String} (h : fs.step location name = .ok target) :
    fs.get? location = some .directory := by
  unfold step at h
  split at h
  · cases h
  · assumption
  · cases h

theorem step_of_keeps (hkeeps : Keeps fs fs') {name : String}
    (h : fs.step location name = .ok target) : fs'.step location name = .ok target := by
  have hhere := step_ok h
  rw [step, hhere] at h
  rw [step, hkeeps.directory location hhere]
  exact h

theorem walk_cons_ok {name : String} {names : List String}
    (h : fs.walk location (name :: names) = .ok target) :
    ∃ next, fs.step location name = .ok next ∧ fs.walk next names = .ok target := by
  rw [walk, List.foldlM_cons] at h
  cases hstep : fs.step location name with
  | error e =>
    rw [hstep] at h
    cases h
  | ok next =>
    rw [hstep] at h
    exact ⟨next, rfl, h⟩

theorem walk_concat {front : List String} {name : String} {parent : Location}
    (h : fs.walk location front = .ok parent) (hstep : fs.step parent name = .ok target) :
    fs.walk location (front ++ [name]) = .ok target := by
  rw [walk, List.foldlM_append, show List.foldlM fs.step location front = .ok parent from h]
  show fs.walk parent [name] = _
  rw [walk, List.foldlM_cons, hstep]
  rfl

theorem walk_of_keeps (hkeeps : Keeps fs fs') {names : List String}
    (h : fs.walk location names = .ok target) : fs'.walk location names = .ok target := by
  induction names generalizing location with
  | nil => exact h
  | cons name names ih =>
    obtain ⟨next, hstep, hrest⟩ := walk_cons_ok h
    rw [walk, List.foldlM_cons, step_of_keeps hkeeps hstep]
    exact ih hrest

/-- A walk that ends at a directory has led through directories only, so that each front of it ends
at one. -/
theorem walk_append_ok {front back : List String}
    (h : fs.walk location (front ++ back) = .ok target)
    (htarget : fs.get? target = some .directory) :
    ∃ next, fs.walk location front = .ok next ∧ fs.get? next = some .directory := by
  induction front generalizing location with
  | nil =>
    -- the walk ends here, or it goes on from here
    refine ⟨location, rfl, ?_⟩
    cases back with
    | nil =>
      cases h
      exact htarget
    | cons name back =>
      obtain ⟨next, hstep, -⟩ := walk_cons_ok h
      exact step_ok hstep
  | cons name front ih =>
    obtain ⟨next, hstep, hrest⟩ := walk_cons_ok h
    obtain ⟨last, hwalk, hdirectory⟩ := ih hrest
    refine ⟨last, ?_, hdirectory⟩
    rw [walk, List.foldlM_cons, hstep]
    exact hwalk

/-! ## Where paths lead -/

def view : Kernel.View Files where
  Place := Location
  Entry := Node
  entry? := get?
  place? fs path := ((fs.start path).bind fun location => fs.walk location (names path)).toOption
  standing := Node.standing

theorem place?_eq_some_iff : view.place? fs path = some location ↔
    ∃ first, fs.start path = .ok first ∧ fs.walk first (names path) = .ok location := by
  show ((fs.start path).bind fun first => fs.walk first (names path)).toOption = some location ↔ _
  cases fs.start path with
  | error e => simp [Except.bind, Except.toOption]
  | ok first =>
    cases hwalk : fs.walk first (names path) <;> simp [Except.bind, Except.toOption, hwalk]

theorem start_of_keeps (hkeeps : Keeps fs fs') (path : String) :
    fs'.start path = fs.start path := by
  rw [start, start, hkeeps.current]

theorem place?_of_keeps (hkeeps : Keeps fs fs') (h : view.place? fs path = some location) :
    view.place? fs' path = some location := by
  obtain ⟨first, hstart, hwalk⟩ := place?_eq_some_iff.mp h
  refine place?_eq_some_iff.mpr ⟨first, ?_, walk_of_keeps hkeeps hwalk⟩
  rw [start_of_keeps hkeeps, hstart]

/-- What is found stands where the path leads; a path that ends in a slash finds directories. -/
theorem lookUp_ok (h : fs.lookUp path = .ok (location, node)) :
    view.place? fs path = some location ∧ fs.get? location = some node ∧
      (asksDirectory path = true → node = .directory) := by
  unfold lookUp at h
  split at h
  · cases h
  · rename_i there hwalk
    split at h
    · cases h
    · rename_i found hget
      split at h
      · cases h
      · rename_i hfits
        cases h
        refine ⟨congrArg Except.toOption hwalk, hget, ?_⟩
        intro hask
        by_cases hnode : node = .directory
        · exact hnode
        · exact absurd ⟨hask, hnode⟩ hfits

theorem reach_of_place? (h : view.place? fs path = some location) :
    ((fs.start path).bind fun first => fs.walk first (names path)) = .ok location := by
  obtain ⟨first, hstart, hwalk⟩ := place?_eq_some_iff.mp h
  rw [hstart]
  exact hwalk

theorem lookUp_of_place? (hplace : view.place? fs path = some location)
    (hget : fs.get? location = some node) (hask : asksDirectory path = true → node = .directory) :
    fs.lookUp path = .ok (location, node) := by
  have hfits : ¬ (asksDirectory path = true ∧ node ≠ .directory) := by
    rintro ⟨hasks, hne⟩
    exact hne (hask hasks)
  simp only [lookUp, reach_of_place? hplace, hget, if_neg hfits]

theorem lookUp_vacant (hplace : view.place? fs path = some location)
    (hget : fs.get? location = none) : fs.lookUp path = .error .noEntry := by
  simp only [lookUp, reach_of_place? hplace, hget]

theorem isDirectory_iff : fs.isDirectory path = true ↔
    ∃ location, view.place? fs path = some location ∧ fs.get? location = some .directory := by
  constructor
  · intro h
    unfold isDirectory at h
    split at h
    · rename_i location hlook
      obtain ⟨hplace, hget, -⟩ := lookUp_ok hlook
      exact ⟨location, hplace, hget⟩
    · cases h
  · rintro ⟨location, hplace, hget⟩
    rw [isDirectory, lookUp_of_place? hplace hget fun _ => rfl]

theorem isDirectory_of_keeps (hkeeps : Keeps fs fs') (h : fs.isDirectory path = true) :
    fs'.isDirectory path = true := by
  obtain ⟨location, hplace, hget⟩ := isDirectory_iff.mp h
  exact isDirectory_iff.mpr
    ⟨location, place?_of_keeps hkeeps hplace, hkeeps.directory location hget⟩

/-- What is new is put where nothing stands, in a directory that the path leads to. -/
theorem vacancy_ok (h : fs.vacancy path = .ok location) :
    location ≠ [] ∧ fs.get? location = none ∧ view.place? fs path = some location := by
  unfold vacancy at h
  split at h
  · cases h
  · rename_i parent hparent
    split at h
    · cases h
    · cases h
    · rename_i name hlast hdirectory
      split at h
      · cases h
      · rename_i hfree
        cases h
        simp only [not_or] at hfree
        obtain ⟨hdot, hdots, hnone⟩ := hfree
        have hfree : fs.get? (parent ++ [name]) = none := by simpa using hnone
        refine ⟨List.append_ne_nil_of_right_ne_nil _ (List.cons_ne_nil _ _), hfree, ?_⟩
        obtain ⟨front, hnames⟩ := List.getLast?_eq_some_iff.mp hlast
        rw [hnames, List.dropLast_concat] at hparent
        -- the walk to the parent goes one step further, into a name that is neither dot nor dots
        have hstep : fs.step parent name = .ok (parent ++ [name]) := by
          rw [step, hdirectory]
          simp only [if_neg hdot, if_neg hdots]
        cases hstart : fs.start path with
        | error e =>
          rw [hstart] at hparent
          cases hparent
        | ok first =>
          rw [hstart] at hparent
          refine place?_eq_some_iff.mpr ⟨first, hstart, ?_⟩
          rw [hnames]
          exact walk_concat hparent hstep
    · cases h

/-! ## The directories above a path -/

theorem slash_notMem_splitOn {cs part : List Char} (h : part ∈ cs.splitOn '/') : '/' ∉ part := by
  induction cs generalizing part with
  | nil =>
    obtain rfl := List.mem_singleton.mp h
    exact List.not_mem_nil
  | cons c cs ih =>
    rw [List.splitOn_cons_eq_if_modifyHead] at h
    split at h
    · rcases List.mem_cons.mp h with rfl | hmem
      · exact List.not_mem_nil
      · exact ih hmem
    · rename_i hslash
      obtain ⟨first, rest, hsplit⟩ := List.exists_cons_of_ne_nil (List.splitOn_ne_nil '/' cs)
      rw [hsplit, List.modifyHead_cons] at h
      rcases List.mem_cons.mp h with rfl | hmem
      · have hfirst : '/' ∉ first := ih (hsplit ▸ List.mem_cons_self)
        rw [List.mem_cons, not_or]
        exact ⟨fun heq => hslash (beq_iff_eq.mpr heq.symm), hfirst⟩
      · exact ih (hsplit ▸ List.mem_cons_of_mem _ hmem)

theorem slash_notMem_parts {part : String} (h : part ∈ parts path) : '/' ∉ part.toList := by
  obtain ⟨cs, hcs, rfl⟩ := List.mem_map.mp h
  rw [String.toList_ofList]
  exact slash_notMem_splitOn hcs

/-- Joined parts are split again, and empty ones do not matter. -/
theorem names_join {ps : List String} (hne : ps ≠ []) (hparts : ∀ part ∈ ps, '/' ∉ part.toList) :
    names (join ps) = ps.filter (· ≠ "") := by
  by_cases hroot : ps = [""]
  · subst hroot
    rfl
  · have hsplit : parts (join ps) = ps := by
      rw [parts, join, if_neg hroot, String.toList_intercalate,
        show "/".toList = ['/'] from rfl, List.splitOn_intercalate]
      · rw [List.map_map]
        exact (List.map_congr_left fun _ _ => String.ofList_toList).trans (List.map_id ps)
      · intro cs hcs
        obtain ⟨part, hpart, rfl⟩ := List.mem_map.mp hcs
        exact hparts part hpart
      · simpa using hne
    rw [names, hsplit]

theorem start_join (fs : Files) (first : String) (ps : List String) :
    fs.start (join (first :: ps)) =
      .ok (if first.toList.headD '/' = '/' then [] else fs.current) := by
  have hhead : (join (first :: ps)).toList.head? = some (first.toList.headD '/') := by
    by_cases hroot : first :: ps = [""]
    · cases hroot
      rfl
    · rw [join, if_neg hroot, String.toList_intercalate]
      cases ps with
      | nil =>
        show (List.intercalate ['/'] [first.toList]).head? = _
        rw [List.intercalate_singleton]
        cases hfirst : first.toList with
        | nil => exact absurd (congrArg (fun t => [t]) (String.toList_eq_nil_iff.mp hfirst)) hroot
        | cons c cs => rfl
      | cons second ps =>
        show (List.intercalate ['/'] (first.toList :: second.toList :: _)).head? = _
        rw [List.intercalate_cons_cons]
        cases first.toList <;> rfl
  have hne : ¬ (join (first :: ps)).isEmpty = true := by
    intro hempty
    rw [String.isEmpty_iff.mp hempty] at hhead
    cases hhead
  rw [start, if_neg hne, isAbsolute, hhead]
  simp only [beq_iff_eq, Option.some.injEq]

/-- The second path is a front of the first. -/
def IsFront (path other : String) : Prop :=
  ∃ front back, front ≠ [] ∧ (∀ part ∈ front ++ back, '/' ∉ part.toList) ∧
    path = join (front ++ back) ∧ other = join front

theorem isDirectory_of_isFront {other : String} (h : IsFront path other)
    (hpath : fs.isDirectory path = true) : fs.isDirectory other = true := by
  obtain ⟨front, back, hne, hparts, rfl, rfl⟩ := h
  obtain ⟨location, hplace, hget⟩ := isDirectory_iff.mp hpath
  obtain ⟨start, hstart, hwalk⟩ := place?_eq_some_iff.mp hplace
  rw [names_join (List.append_ne_nil_of_left_ne_nil hne _) hparts, List.filter_append] at hwalk
  obtain ⟨next, hnext, hdirectory⟩ := walk_append_ok hwalk hget
  refine isDirectory_iff.mpr ⟨next, place?_eq_some_iff.mpr ⟨start, ?_, ?_⟩, hdirectory⟩
  · cases front with
    | nil => exact absurd rfl hne
    | cons first front =>
      rw [List.cons_append, start_join] at hstart
      rw [start_join, hstart]
  · rw [names_join hne fun part hpart => hparts part (List.mem_append_left _ hpart)]
    exact hnext

theorem mem_upward {backwards : List String} {other : String} (h : other ∈ upward backwards) :
    ∃ front back, front ≠ [] ∧ backwards.reverse = front ++ back ∧ other = join front := by
  induction backwards with
  | nil => cases h
  | cons part rest ih =>
    have hlater : other ∈ upward rest → ∃ front back, front ≠ [] ∧
        (part :: rest).reverse = front ++ back ∧ other = join front := by
      intro hmem
      obtain ⟨front, back, hne, hback, rfl⟩ := ih hmem
      exact ⟨front, back ++ [part], hne, by rw [List.reverse_cons, hback, List.append_assoc], rfl⟩
    rw [upward] at h
    split at h
    · exact hlater h
    · rcases List.mem_cons.mp h with rfl | hmem
      · exact ⟨_, [], by simp, (List.append_nil _).symm, rfl⟩
      · exact hlater hmem

theorem upward_pairwise {backwards : List String}
    (hparts : ∀ part ∈ backwards, '/' ∉ part.toList) : (upward backwards).Pairwise IsFront := by
  induction backwards with
  | nil => exact .nil
  | cons part rest ih =>
    have hrest := ih fun p hp => hparts p (List.mem_cons_of_mem _ hp)
    rw [upward]
    split
    · exact hrest
    · refine .cons ?_ hrest
      intro other hother
      obtain ⟨front, back, hne, hback, rfl⟩ := mem_upward hother
      have hwhole : (part :: rest).reverse = front ++ (back ++ [part]) := by
        rw [List.reverse_cons, hback, List.append_assoc]
      refine ⟨front, back ++ [part], hne, ?_, congrArg join hwhole, rfl⟩
      intro p hp
      rw [← hwhole] at hp
      exact hparts p (List.mem_reverse.mp hp)

theorem isDirectory_above {d a : String} {ds : List String} (habove : above path = d :: ds)
    (ha : a ∈ ds) (hd : fs.isDirectory d = true) : fs.isDirectory a = true := by
  have hpairs : (above path).Pairwise IsFront := by
    apply List.Pairwise.tail
    apply upward_pairwise
    intro part hpart
    exact slash_notMem_parts (List.mem_reverse.mp hpart)
  rw [habove] at hpairs
  exact isDirectory_of_isFront ((List.pairwise_cons.mp hpairs).1 a ha) hd

/-! ## The laws -/

theorem makeDirectory_ok (h : fs.makeDirectory path = .ok fs') :
    fs'.isDirectory path = true ∧
      ∃ location, view.Adds location Node.directory fs fs' := by
  cases hvacancy : fs.vacancy path with
  | error e =>
    rw [makeDirectory, hvacancy] at h
    cases h
  | ok location =>
    rw [makeDirectory, hvacancy] at h
    cases h
    obtain ⟨hne, hnone, hplace⟩ := vacancy_ok hvacancy
    have hkeeps : Keeps fs (fs.put location .directory) := keeps_put (by simp [hnone])
    exact ⟨isDirectory_iff.mpr ⟨location, place?_of_keeps hkeeps hplace, get?_put fs hne⟩,
      location, hnone, get?_put fs hne, fun other hother => get?_put_of_ne fs hother⟩

theorem makeSocket_ok (h : fs.makeSocket path = .ok fs') :
    ∃ location, fs' = fs.put location (.socket .accepted 511) ∧ location ≠ [] ∧
      fs.get? location = none ∧ view.place? fs path = some location ∧
      asksDirectory path = false := by
  unfold makeSocket at h
  split at h
  · cases h
  · cases h
  · rename_i location hvacancy
    split at h
    · cases h
    · rename_i hask
      cases h
      obtain ⟨hne, hnone, hplace⟩ := vacancy_ok hvacancy
      exact ⟨location, rfl, hne, hnone, hplace, Bool.eq_false_iff.mpr hask⟩

theorem keeps_makeSocket (h : fs.makeSocket path = .ok fs') : Keeps fs fs' := by
  obtain ⟨location, rfl, -, hnone, -, -⟩ := makeSocket_ok h
  exact keeps_put (by simp [hnone])

/-- Setting the mode of a socket changes this socket only. -/
theorem setMode_socket {reception : Reception} {mode mode' : Nat}
    (hlook : fs.lookUp path = .ok (location, .socket reception mode))
    (h : fs.setMode path mode' = .ok fs') :
    fs' = fs.put location (.socket reception mode') ∧ Keeps fs fs' ∧
      fs'.lookUp path = .ok (location, .socket reception mode') := by
  rw [setMode, hlook] at h
  cases h
  obtain ⟨hplace, hget, hfits⟩ := lookUp_ok hlook
  have hkeeps : Keeps fs (fs.put location (.socket reception mode')) := keeps_put (by simp [hget])
  refine ⟨rfl, hkeeps, lookUp_of_place? (place?_of_keeps hkeeps hplace) ?_ ?_⟩
  · exact get?_put fs (ne_nil_of_get? hget (by simp))
  · intro hask
    cases hfits hask

theorem lookUp_own (h : kernel.Own path fs) :
    ∃ location reception mode, fs.lookUp path = .ok (location, .socket reception mode) := by
  induction h with
  | made hmade =>
    obtain ⟨location, rfl, hne, hnone, hplace, hask⟩ := makeSocket_ok hmade
    have hkeeps := keeps_makeSocket hmade
    refine ⟨location, .accepted, 511, lookUp_of_place? (place?_of_keeps hkeeps hplace) ?_ ?_⟩
    · exact get?_put _ hne
    · intro hasks
      rw [hask] at hasks
      cases hasks
  | moded _ hmoded ih =>
    obtain ⟨location, reception, mode, hlook⟩ := ih
    exact ⟨location, reception, _, (setMode_socket hlook hmoded).2.2⟩

theorem remove_ok (h : fs.remove path = .ok fs') :
    fs'.lookUp path = .error .noEntry ∧
      ∃ location, view.place? fs path = some location ∧ fs'.get? location = none ∧
        view.SameBut location fs fs' := by
  unfold remove at h
  split at h
  · cases h
  · cases h
  · rename_i location node hnode hlook
    cases h
    obtain ⟨hplace, hget, -⟩ := lookUp_ok hlook
    have hnil := ne_nil_of_get? hget hnode
    have hkeeps : Keeps fs (fs.erase location) := by
      apply keeps_erase
      rw [hget]
      exact fun heq => hnode (Option.some.inj heq)
    exact ⟨lookUp_vacant (place?_of_keeps hkeeps hplace) (get?_erase fs hnil), location, hplace,
      get?_erase fs hnil, fun other hother => get?_erase_of_ne fs hother⟩

/-- **Files in memory keep the laws.** -/
theorem laws : kernel.Laws view where
  lookUp_ok := by
    intro fs path standing h
    cases hlook : fs.lookUp path with
    | error e =>
      simp only [kernel, hlook, Except.map] at h
      cases h
    | ok found =>
      simp only [kernel, hlook, Except.map] at h
      obtain ⟨location, node⟩ := found
      cases h
      obtain ⟨hplace, hget, -⟩ := lookUp_ok hlook
      exact ⟨location, node, hplace, hget, rfl⟩
  remove_ok := by
    intro fs fs' path h
    obtain ⟨hgone, hplace⟩ := remove_ok h
    refine ⟨?_, hplace⟩
    simp only [kernel, hgone, Except.map]
  makeDirectory_ok := by
    intro fs fs' path h
    obtain ⟨hthere, location, hadds⟩ := makeDirectory_ok h
    exact ⟨hthere, location, .directory, hadds, rfl⟩
  makeSocket_ok := by
    intro fs fs' path h
    have hkeeps := keeps_makeSocket h
    obtain ⟨location, rfl, hne, hnone, hplace, -⟩ := makeSocket_ok h
    exact ⟨location, .socket .accepted 511, 511, place?_of_keeps hkeeps hplace,
      ⟨hnone, get?_put fs hne, fun other hother => get?_put_of_ne fs hother⟩, rfl⟩
  setMode_own := by
    intro fs fs' path mode hown h
    obtain ⟨location, reception, mode', hlook⟩ := lookUp_own hown
    obtain ⟨rfl, hkeeps, hlook'⟩ := setMode_socket hlook h
    have hplace := (lookUp_ok hlook).1
    refine ⟨?_, ⟨location, hplace, fun other hother => get?_put_of_ne fs hother⟩, ?_⟩
    · rw [place?_of_keeps hkeeps hplace, hplace]
    · intro _
      simp only [kernel, hlook', Except.map, Node.standing]
  remove_own := by
    intro fs path hown
    obtain ⟨location, reception, mode, hlook⟩ := lookUp_own hown
    refine ⟨fs.erase location, ?_⟩
    simp only [kernel, remove, hlook]
  isDirectory_makeSocket h hd := isDirectory_of_keeps (keeps_makeSocket h) hd
  isDirectory_setMode := by
    intro fs fs' path mode d hown h hd
    obtain ⟨location, reception, mode', hlook⟩ := lookUp_own hown
    exact isDirectory_of_keeps (setMode_socket hlook h).2.1 hd
  isDirectory_above habove hd a ha := isDirectory_above habove ha hd

end Courier.Files
