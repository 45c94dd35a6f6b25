import Courier.Files.Kernel
import Courier.Files.Path

/-!
# What calls on files mean

A kernel keeps entries at places, and each call is said by what it does to them (`Kernel.Laws`): one
entry is looked at, added, changed or taken away, and all others stay as they are. Of the
directories above a path those that are missing can be made, which adds directories and changes
nothing (`Laws.grows_makeDirectories`).
-/

namespace Courier.Kernel

variable {σ : Type}

/-- The entries that a kernel keeps. A place is a name in a directory, so that several paths may
lead to one place. -/
structure View (σ : Type) where
  Place : Type
  /-- All that there is to an entry: contents, permission bits and whatever else. -/
  Entry : Type
  entry? : σ → Place → Option Entry
  /-- Where a path leads; a link at its end is not followed. -/
  place? : σ → String → Option Place
  standing : Entry → Standing

namespace View

variable (v : View σ)

def SameBut (place : v.Place) (s s' : σ) : Prop :=
  ∀ other, other ≠ place → v.entry? s' other = v.entry? s other

/-- An entry is put at a place where nothing stands. -/
structure Adds (place : v.Place) (entry : v.Entry) (s s' : σ) : Prop where
  vacant : v.entry? s place = none
  stands : v.entry? s' place = some entry
  rest : v.SameBut place s s'

def AddsDirectories (s s' : σ) : Prop :=
  ∀ place entry, v.entry? s place = none → v.entry? s' place = some entry →
    v.standing entry = .directory

/-- No entry is lost or changed, and new ones are directories. -/
structure Grows (s s' : σ) : Prop where
  kept : ∀ {place entry}, v.entry? s place = some entry → v.entry? s' place = some entry
  added : v.AddsDirectories s s'

end View

/-- The socket at the path is this process's own: it has put it there, and since then it has only
set its permission bits. -/
inductive Own (k : Kernel σ) (path : String) : σ → Prop
  | made {s s' : σ} : k.makeSocket s path = .ok s' → Own k path s'
  | moded {s s' : σ} {mode : Nat} : Own k path s → k.setMode s path mode = .ok s' → Own k path s'

/-- **What the calls of a kernel mean.** What a process may do to its own socket is said apart: the
socket has one name, which may be taken away from the directory that has just taken it. -/
structure Laws (k : Kernel σ) (v : View σ) : Prop where
  lookUp_ok : ∀ {s path standing}, k.lookUp s path = .ok standing →
    ∃ place entry, v.place? s path = some place ∧ v.entry? s place = some entry ∧
      v.standing entry = standing
  remove_ok : ∀ {s s' path}, k.remove s path = .ok s' →
    k.lookUp s' path = .error .noEntry ∧
      ∃ place, v.place? s path = some place ∧ v.entry? s' place = none ∧ v.SameBut place s s'
  makeDirectory_ok : ∀ {s s' path}, k.makeDirectory s path = .ok s' →
    k.isDirectory s' path = true ∧
      ∃ place entry, v.Adds place entry s s' ∧ v.standing entry = .directory
  makeSocket_ok : ∀ {s s' path}, k.makeSocket s path = .ok s' →
    ∃ place entry mode, v.place? s' path = some place ∧ v.Adds place entry s s' ∧
      v.standing entry = .socket mode
  setMode_own : ∀ {s s' path mode}, k.Own path s → k.setMode s path mode = .ok s' →
    v.place? s' path = v.place? s path ∧
      (∃ place, v.place? s path = some place ∧ v.SameBut place s s') ∧
      -- nothing but permission bits is asked for
      (mode ≤ 511 → k.lookUp s' path = .ok (.socket mode))
  remove_own : ∀ {s path}, k.Own path s → ∃ s', k.remove s path = .ok s'
  isDirectory_makeSocket : ∀ {s s' path d}, k.makeSocket s path = .ok s' →
    k.isDirectory s d = true → k.isDirectory s' d = true
  isDirectory_setMode : ∀ {s s' path mode d}, k.Own path s → k.setMode s path mode = .ok s' →
    k.isDirectory s d = true → k.isDirectory s' d = true
  /-- A path leads through the directories above it. -/
  isDirectory_above : ∀ {s path d ds}, Files.above path = d :: ds → k.isDirectory s d = true →
    ∀ a ∈ ds, k.isDirectory s a = true

/-! ## Making directories -/

namespace View

variable {v : View σ} {s s' s'' : σ}

theorem Grows.refl (v : View σ) (s : σ) : v.Grows s s := by
  refine ⟨id, ?_⟩
  intro place entry hnone hsome
  rw [hnone] at hsome
  cases hsome

theorem AddsDirectories.grows (h : v.AddsDirectories s s') (h' : v.Grows s' s'') :
    v.AddsDirectories s s'' := by
  intro place entry hnone hsome
  cases hmid : v.entry? s' place with
  | none => exact h'.added place entry hmid hsome
  | some entry' =>
    rw [h'.kept hmid] at hsome
    obtain rfl := Option.some.inj hsome
    exact h place _ hnone hmid

theorem Grows.trans (h : v.Grows s s') (h' : v.Grows s' s'') : v.Grows s s'' :=
  ⟨fun hentry => h'.kept (h.kept hentry), h.added.grows h'⟩

theorem Adds.grows {place : v.Place} {entry : v.Entry} (h : v.Adds place entry s s')
    (hdirectory : v.standing entry = .directory) : v.Grows s s' := by
  constructor
  · intro other entry' hentry
    have hne : other ≠ place := by
      rintro rfl
      rw [h.vacant] at hentry
      cases hentry
    rw [h.rest other hne, hentry]
  · intro other entry' hnone hsome
    by_cases heq : other = place
    · subst heq
      rw [h.stands] at hsome
      obtain rfl := Option.some.inj hsome
      exact hdirectory
    · rw [h.rest other heq, hnone] at hsome
      cases hsome

end View

/-- When directories have been made, the first has been made last, or it has been found. -/
theorem makeDirectories_cons_ok {k : Kernel σ} {s s' : σ} {path : String} {above : List String}
    (h : k.makeDirectories s (path :: above) = (.ok (), s')) :
    (∃ before, k.makeDirectory before path = .ok s') ∨ k.isDirectory s' path = true := by
  have hfound : ∀ {before : σ} {e : OsError},
      ((if k.isDirectory before path then .ok () else .error e, before) : Except OsError Unit × σ) =
        (.ok (), s') → k.isDirectory s' path = true := by
    intro before e heq
    split at heq
    · rename_i hthere
      cases heq
      exact hthere
    · cases heq
  unfold makeDirectories at h
  split at h
  · rename_i hmade
    cases h
    exact .inl ⟨s, hmade⟩
  · split at h
    · cases h
    · rename_i before _
      split at h
      · rename_i hmade
        cases h
        exact .inl ⟨before, hmade⟩
      · exact .inr (hfound h)
  · exact .inr (hfound h)

namespace Laws

variable {k : Kernel σ} {v : View σ} (laws : k.Laws v)
include laws

theorem grows_makeDirectory {s s' : σ} {path : String} (h : k.makeDirectory s path = .ok s') :
    v.Grows s s' := by
  obtain ⟨-, place, entry, hadds, hdirectory⟩ := laws.makeDirectory_ok h
  exact hadds.grows hdirectory

/-- However it ends, making directories adds directories and does nothing else. -/
theorem grows_makeDirectories (s : σ) (paths : List String) :
    v.Grows s (k.makeDirectories s paths).2 := by
  induction paths with
  | nil => exact .refl v s
  | cons path above ih =>
    unfold makeDirectories
    split
    · rename_i s' hmade
      exact laws.grows_makeDirectory hmade
    · split
      · rename_i e s' habove
        rw [habove] at ih
        exact ih
      · rename_i s' habove
        rw [habove] at ih
        split
        · rename_i s'' hmade
          exact ih.trans (laws.grows_makeDirectory hmade)
        · exact ih
    · exact .refl v s

theorem isDirectory_makeDirectories {s s' : σ} {path d : String}
    (h : k.makeDirectories s (Files.above path) = (.ok (), s')) (hd : d ∈ Files.above path) :
    k.isDirectory s' d = true := by
  cases habove : Files.above path with
  | nil =>
    rw [habove] at hd
    cases hd
  | cons nearest further =>
    have hnearest : k.isDirectory s' nearest = true := by
      rw [habove] at h
      rcases makeDirectories_cons_ok h with ⟨before, hmade⟩ | hthere
      · exact (laws.makeDirectory_ok hmade).1
      · exact hthere
    rw [habove] at hd
    rcases List.mem_cons.mp hd with rfl | hfurther
    · exact hnearest
    · exact laws.isDirectory_above habove hnearest d hfurther

end Laws

end Courier.Kernel
