import Courier.Proofs.FilesLaws
import Courier.Proofs.Utf8Inverse
import Courier.Socket.Bind

/-!
# Binding spares what is in use

Whatever kernel keeps the files, a binding ends in one of few ways (`Outcome`). It looks first, and
what fails then has touched nothing. Then it prepares the place, where it takes away nothing but a
socket that nobody listens to and adds nothing but directories (`Prepares`). The socket is put where
nothing stands, and it goes again without a trace (`Puts.discard`) if it cannot be finished or when
the server goes.

Main statement: `bind_spares`.
-/

namespace Courier

open Text

/-! ## Settings without flaw -/

theorem Settings.utf8_path {settings : Settings}
    (h : Socket.pathFlaw? settings.socketPath = none) :
    utf8 settings.path = settings.socketPath := by
  unfold Socket.pathFlaw? at h
  split at h
  · cases h
  · rename_i cs hdecode
    rw [utf8, path, String.toList_ofList]
    exact Utf8.encode_decodeLossy hdecode

theorem Settings.socketMode_le {settings : Settings} (h : settings.flaw? = none) :
    settings.socketMode ≤ 511 := by
  unfold flaw? at h
  split at h
  · cases h
  split at h
  · cases h
  split at h
  · cases h
  split at h
  · cases h
  · rename_i hmode
    exact Nat.le_of_not_lt hmode

namespace Socket

/-- How far a binding has come. -/
inductive Stage where
  | looking
  | preparing
  | putting
  | finishing
deriving DecidableEq, Repr

def BindError.stage : BindError → Stage
  | .config _ => .looking
  | .invalidPath _ _ => .looking
  | .metadata _ _ => .looking
  | .notSocket _ => .looking
  | .inUse _ => .looking
  | .connect _ _ => .looking
  | .cleanup _ _ => .preparing
  | .createDirectory _ _ => .preparing
  | .bind _ _ => .putting
  | .permissions _ _ => .finishing
  | .runtime _ => .finishing

variable {σ : Type} {k : Kernel σ} {v : Kernel.View σ} {settings : Settings} {path : String}
  {s s' : σ}

/-! ## Looking -/

/-- At the place that the path leads to stands a socket that takes no connections: they are refused,
or find that it has gone. -/
def IsDead (k : Kernel σ) (v : Kernel.View σ) (path : String) (s : σ) (place : v.Place)
    (entry : v.Entry) : Prop :=
  v.place? s path = some place ∧ (∃ mode, v.standing entry = .socket mode) ∧
    (k.connect s path = .refused ∨ k.connect s path = .failed .noEntry)

theorem survey_error {e : BindError} (h : survey k path s = .error e) : e.stage = .looking := by
  unfold survey at h
  split at h
  · cases h
  · cases h
    rfl
  · split at h
    · cases h
    · cases h
    · cases h
      rfl
    · cases h
      rfl
  · cases h
    rfl

theorem survey_stale (h : survey k path s = .ok .stale) :
    (∃ mode, k.lookUp s path = .ok (.socket mode)) ∧
      (k.connect s path = .refused ∨ k.connect s path = .failed .noEntry) := by
  unfold survey at h
  split at h
  · cases h
  · cases h
  · rename_i mode hlook
    split at h
    · rename_i hrefused
      exact ⟨⟨mode, hlook⟩, .inl hrefused⟩
    · rename_i hgone
      exact ⟨⟨mode, hlook⟩, .inr hgone⟩
    · cases h
    · cases h
  · cases h

theorem site_ok {found : Site} (h : site k settings s = .ok found) :
    settings.flaw? = none ∧ pathFlaw? settings.socketPath = none ∧
      survey k settings.path s = .ok found := by
  unfold site at h
  split at h
  · cases h
  · rename_i hflaw
    cases hpath : pathFlaw? settings.socketPath with
    | none =>
      simp only [checkPath, hpath] at h
      exact ⟨hflaw, rfl, h⟩
    | some flaw =>
      simp only [checkPath, hpath] at h
      cases h

theorem site_error {e : BindError} (h : site k settings s = .error e) : e.stage = .looking := by
  unfold site at h
  split at h
  · cases h
    rfl
  · cases hpath : pathFlaw? settings.socketPath with
    | none =>
      simp only [checkPath, hpath] at h
      exact survey_error h
    | some flaw =>
      simp only [checkPath, hpath] at h
      cases h
      rfl

/-! ## Preparing the place -/

/-- Nothing is taken away but a dead socket at the path, and nothing is added but directories. -/
structure Prepares (k : Kernel σ) (v : Kernel.View σ) (path : String) (s s' : σ) : Prop where
  spared : ∀ {place entry}, v.entry? s place = some entry →
    v.entry? s' place = some entry ∨ IsDead k v path s place entry
  added : v.AddsDirectories s s'

theorem Prepares.of_grows (h : v.Grows s s') : Prepares k v path s s' :=
  ⟨fun hentry => .inl (h.kept hentry), h.added⟩

theorem Prepares.grows (h : Prepares k v path s s') {s'' : σ} (h' : v.Grows s' s'') :
    Prepares k v path s s'' := by
  refine ⟨?_, h.added.grows h'⟩
  intro place entry hentry
  rcases h.spared hentry with hkept | hdead
  · exact .inl (h'.kept hkept)
  · exact .inr hdead

theorem clear_ok (laws : k.Laws v) {found : Site} (hsurvey : survey k path s = .ok found)
    (h : clear k path s found = .ok s') : Prepares k v path s s' := by
  cases found with
  | vacant =>
    cases h
    exact .of_grows (.refl v s)
  | stale =>
    obtain ⟨⟨mode, hlook⟩, hdead⟩ := survey_stale hsurvey
    cases hremove : k.remove s path with
    | error e =>
      rw [clear, hremove] at h
      cases h
    | ok left =>
      rw [clear, hremove] at h
      cases h
      obtain ⟨-, gone, hgone, hnone, hrest⟩ := laws.remove_ok hremove
      obtain ⟨place, entry, hplace, hentry, hsocket⟩ := laws.lookUp_ok hlook
      -- what has been removed is what has been looked at
      obtain rfl : gone = place := Option.some.inj (hgone.symm.trans hplace)
      constructor
      · intro other entry' hother
        by_cases heq : other = gone
        · subst heq
          obtain rfl := Option.some.inj (hentry.symm.trans hother)
          exact .inr ⟨hplace, ⟨mode, hsocket⟩, hdead⟩
        · exact .inl ((hrest other heq).trans hother)
      · intro other entry' hother hafter
        by_cases heq : other = gone
        · rw [heq, hnone] at hafter
          cases hafter
        · rw [hrest other heq, hother] at hafter
          cases hafter

theorem clear_error {found : Site} {e : BindError} (h : clear k path s found = .error e) :
    e.stage = .preparing := by
  cases found with
  | vacant => cases h
  | stale =>
    cases hremove : k.remove s path with
    | error cause =>
      rw [clear, hremove] at h
      cases h
      rfl
    | ok left =>
      rw [clear, hremove] at h
      cases h

/-! ## Putting the socket -/

/-- This process has put its socket where nothing stood. -/
structure Puts (k : Kernel σ) (v : Kernel.View σ) (path : String) (s s' : σ) : Prop where
  own : k.Own path s'
  place : ∃ place, v.place? s' path = some place ∧ v.entry? s place = none ∧ v.SameBut place s s'
  directory : ∀ d, k.isDirectory s d = true → k.isDirectory s' d = true

namespace Puts

theorem made (laws : k.Laws v) (h : k.makeSocket s path = .ok s') : Puts k v path s s' := by
  obtain ⟨place, entry, mode, hplace, hadds, -⟩ := laws.makeSocket_ok h
  exact ⟨.made h, ⟨place, hplace, hadds.vacant, hadds.rest⟩,
    fun d hd => laws.isDirectory_makeSocket h hd⟩

theorem moded (laws : k.Laws v) (h : Puts k v path s s') {s'' : σ} {mode : Nat}
    (hmoded : k.setMode s' path mode = .ok s'') : Puts k v path s s'' := by
  obtain ⟨hsame, ⟨place', hplace', hrest'⟩, -⟩ := laws.setMode_own h.own hmoded
  obtain ⟨place, hplace, hnone, hrest⟩ := h.place
  obtain rfl : place = place' := Option.some.inj (hplace.symm.trans hplace')
  refine ⟨.moded h.own hmoded, ⟨place, hsame.trans hplace, hnone, ?_⟩, ?_⟩
  · intro other hother
    rw [hrest' other hother, hrest other hother]
  · intro d hd
    exact laws.isDirectory_setMode h.own hmoded (h.directory d hd)

theorem kept (h : Puts k v path s s') {place : v.Place} {entry : v.Entry}
    (hentry : v.entry? s place = some entry) : v.entry? s' place = some entry := by
  obtain ⟨own, -, hnone, hrest⟩ := h.place
  have hne : place ≠ own := by
    rintro rfl
    rw [hnone] at hentry
    cases hentry
  exact (hrest place hne).trans hentry

/-- The socket goes, and all is as it was before it came. -/
theorem discard (laws : k.Laws v) (h : Puts k v path s s') :
    k.lookUp (k.discard path s') path = .error .noEntry ∧
      ∀ place, v.entry? (k.discard path s') place = v.entry? s place := by
  obtain ⟨place, hplace, hnone, hrest⟩ := h.place
  obtain ⟨s'', hremove⟩ := laws.remove_own h.own
  obtain ⟨hgone, place', hplace', hnone', hrest'⟩ := laws.remove_ok hremove
  obtain rfl : place = place' := Option.some.inj (hplace.symm.trans hplace')
  have hdiscard : k.discard path s' = s'' := by
    rw [Kernel.discard, hremove]
  rw [hdiscard]
  refine ⟨hgone, ?_⟩
  intro other
  by_cases heq : other = place
  · rw [heq, hnone, hnone']
  · rw [hrest' other heq, hrest other heq]

end Puts

/-! ## Binding -/

/-- What comes of a binding, and what is kept then. -/
inductive Outcome (k : Kernel σ) (v : Kernel.View σ) (settings : Settings) (s : σ) :
    Except BindError Unit × σ → Prop
  | refused {e : BindError} : e.stage = .looking → Outcome k v settings s (.error e, s)
  | unprepared {e : BindError} {made : σ} : e.stage = .preparing →
      Prepares k v settings.path s made → Outcome k v settings s (.error e, made)
  | notPut {e : BindError} {made : σ} : e.stage = .putting →
      Prepares k v settings.path s made →
      (∀ d ∈ Files.above settings.path, k.isDirectory made d = true) →
      Outcome k v settings s (.error e, made)
  | undone {e : BindError} {made s' : σ} : e.stage = .finishing →
      Prepares k v settings.path s made → Puts k v settings.path made s' →
      Outcome k v settings s (.error e, k.discard settings.path s')
  | bound {made s' : σ} : utf8 settings.path = settings.socketPath →
      Prepares k v settings.path s made →
      (∀ d ∈ Files.above settings.path, k.isDirectory made d = true) →
      Puts k v settings.path made s' →
      k.lookUp s' settings.path = .ok (.socket settings.socketMode) →
      Outcome k v settings s (.ok (), s')

theorem outcome_put (laws : k.Laws v) (hflaw : settings.flaw? = none)
    (hpath : pathFlaw? settings.socketPath = none) {made : σ}
    (hprepares : Prepares k v settings.path s made)
    (hthere : ∀ d ∈ Files.above settings.path, k.isDirectory made d = true) :
    Outcome k v settings s (put k settings.path settings.socketMode made) := by
  unfold put
  cases hmade : k.makeSocket made settings.path with
  | error e => exact .notPut rfl hprepares hthere
  | ok s₁ =>
    have hputs := Puts.made laws hmade
    dsimp only
    cases hmoded : k.setMode s₁ settings.path settings.socketMode with
    -- the permission bits have not been set, but the socket is there
    | error e => exact .undone rfl hprepares hputs
    | ok s₂ =>
      have hputs' := hputs.moded laws hmoded
      dsimp only
      cases k.attend s₂ settings.path with
      | error e => exact .undone rfl hprepares hputs'
      | ok _ =>
        have hlook := (laws.setMode_own hputs.own hmoded).2.2 (Settings.socketMode_le hflaw)
        exact .bound (Settings.utf8_path hpath) hprepares hthere hputs' hlook

theorem outcome_putBelow (laws : k.Laws v) (hflaw : settings.flaw? = none)
    (hpath : pathFlaw? settings.socketPath = none) {cleared : σ}
    (hprepares : Prepares k v settings.path s cleared) :
    Outcome k v settings s (putBelow k settings.path settings.socketMode cleared) := by
  have hgrows := laws.grows_makeDirectories cleared (Files.above settings.path)
  unfold putBelow
  dsimp only
  rcases hmade : k.makeDirectories cleared (Files.above settings.path) with ⟨e | _, made⟩
  · rw [hmade] at hgrows
    exact .unprepared rfl (hprepares.grows hgrows)
  · rw [hmade] at hgrows
    exact outcome_put laws hflaw hpath (hprepares.grows hgrows)
      fun d hd => laws.isDirectory_makeDirectories hmade hd

/-- **How a binding goes**, whatever the kernel answers to its calls. -/
theorem outcome_bind (laws : k.Laws v) (settings : Settings) (s : σ) :
    Outcome k v settings s (bind k settings s) := by
  unfold bind
  cases hsite : site k settings s with
  | error e => exact .refused (site_error hsite)
  | ok found =>
    obtain ⟨hflaw, hpath, hsurvey⟩ := site_ok hsite
    dsimp only
    cases hclear : clear k settings.path s found with
    | error e => exact .unprepared (clear_error hclear) (.of_grows (.refl v s))
    | ok cleared => exact outcome_putBelow laws hflaw hpath (clear_ok laws hsurvey hclear)

namespace Outcome

variable {result : Except BindError Unit} {place : v.Place} {entry : v.Entry}

theorem spared (h : Outcome k v settings s (result, s')) (laws : k.Laws v)
    (hentry : v.entry? s place = some entry) :
    v.entry? s' place = some entry ∨ IsDead k v settings.path s place entry := by
  cases h with
  | refused _ => exact .inl hentry
  | unprepared _ hprepares => exact hprepares.spared hentry
  | notPut _ hprepares _ => exact hprepares.spared hentry
  | undone _ hprepares hputs =>
    rw [(hputs.discard laws).2]
    exact hprepares.spared hentry
  | bound _ hprepares _ hputs _ =>
    rcases hprepares.spared hentry with hkept | hdead
    · exact .inl (hputs.kept hkept)
    · exact .inr hdead

theorem added (h : Outcome k v settings s (result, s')) (laws : k.Laws v)
    (hnone : v.entry? s place = none) (hentry : v.entry? s' place = some entry) :
    v.standing entry = .directory ∨
      result = .ok () ∧ v.place? s' settings.path = some place := by
  cases h with
  | refused _ =>
    rw [hnone] at hentry
    cases hentry
  | unprepared _ hprepares => exact .inl (hprepares.added place entry hnone hentry)
  | notPut _ hprepares _ => exact .inl (hprepares.added place entry hnone hentry)
  | undone _ hprepares hputs =>
    rw [(hputs.discard laws).2] at hentry
    exact .inl (hprepares.added place entry hnone hentry)
  | bound _ hprepares _ hputs _ =>
    obtain ⟨own, hown, -, hrest⟩ := hputs.place
    by_cases hplace : place = own
    · rw [hplace]
      exact .inr ⟨rfl, hown⟩
    · rw [hrest place hplace] at hentry
      exact .inl (hprepares.added place entry hnone hentry)

theorem unchanged {e : BindError} (h : Outcome k v settings s (.error e, s'))
    (he : e.stage = .looking) : s' = s := by
  cases h with
  | refused _ => rfl
  | unprepared hstage _ => cases hstage.symm.trans he
  | notPut hstage _ _ => cases hstage.symm.trans he
  | undone hstage _ _ => cases hstage.symm.trans he

theorem isDirectory {e : BindError} (h : Outcome k v settings s (.error e, s'))
    (he : e.stage = .putting) : ∀ d ∈ Files.above settings.path, k.isDirectory s' d = true := by
  cases h with
  | refused hstage => cases hstage.symm.trans he
  | unprepared hstage _ => cases hstage.symm.trans he
  | notPut _ _ hthere => exact hthere
  | undone hstage _ _ => cases hstage.symm.trans he

end Outcome

/-- **Binding spares what is in use.** Whatever a kernel keeps at first:
- If the settings or the path have a flaw, nothing is looked at or touched.
- An entry that stood before stands unchanged afterwards, unless it is a dead socket at the path.
- A new entry is a directory, or the socket if all has gone well.
- A binding that fails while it only looks leaves all as it was.
- If the socket cannot be put, the directories above the path are there.
- If all has gone well, the path leads to a socket with the permission bits of the settings, and the
  directories above it are there. When the server goes the socket goes, and nothing else. -/
theorem bind_spares (laws : k.Laws v) (settings : Settings) (s : σ) :
    (∀ flaw, settings.flaw? = some flaw → bind k settings s = (.error (.config flaw), s)) ∧
      (∀ flaw, settings.flaw? = none → pathFlaw? settings.socketPath = some flaw →
        bind k settings s =
          (.error (.invalidPath (Utf8.decodeLossy settings.socketPath) flaw), s)) ∧
      (∀ place entry, v.entry? s place = some entry →
        v.entry? (bind k settings s).2 place = some entry ∨
          IsDead k v settings.path s place entry) ∧
      (∀ place entry, v.entry? s place = none →
        v.entry? (bind k settings s).2 place = some entry →
        v.standing entry = .directory ∨ (bind k settings s).1 = .ok () ∧
          v.place? (bind k settings s).2 settings.path = some place) ∧
      (∀ e, (bind k settings s).1 = .error e → e.stage = .looking → (bind k settings s).2 = s) ∧
      (∀ e, (bind k settings s).1 = .error e → e.stage = .putting →
        ∀ d ∈ Files.above settings.path, k.isDirectory (bind k settings s).2 d = true) ∧
      ((bind k settings s).1 = .ok () →
        utf8 settings.path = settings.socketPath ∧
          k.lookUp (bind k settings s).2 settings.path = .ok (.socket settings.socketMode) ∧
          (∀ d ∈ Files.above settings.path, k.isDirectory (bind k settings s).2 d = true) ∧
          k.lookUp (unbind k settings (bind k settings s).2) settings.path = .error .noEntry ∧
          ∀ place, v.place? (bind k settings s).2 settings.path ≠ some place →
            v.entry? (unbind k settings (bind k settings s).2) place =
              v.entry? (bind k settings s).2 place) := by
  have houtcome := outcome_bind laws settings s
  rcases hbind : bind k settings s with ⟨result, s'⟩
  rw [hbind] at houtcome
  refine ⟨?_, ?_, fun place entry => houtcome.spared laws, fun place entry => houtcome.added laws,
    ?_, ?_, ?_⟩
  · intro flaw hflaw
    rw [← hbind]
    simp only [bind, site, hflaw]
  · intro flaw hflaw hpath
    rw [← hbind]
    simp only [bind, site, hflaw, checkPath, hpath]
  · rintro e rfl he
    exact houtcome.unchanged he
  · rintro e rfl he
    exact houtcome.isDirectory he
  · rintro rfl
    -- of all outcomes one is a success
    cases houtcome with
    | bound hpath _ hthere hputs hlook =>
      obtain ⟨own, hown, -, hrest⟩ := hputs.place
      obtain ⟨hgone, hback⟩ := hputs.discard laws
      refine ⟨hpath, hlook, fun d hd => hputs.directory d (hthere d hd), hgone, ?_⟩
      intro place hplace
      have hne : place ≠ own := by
        rintro rfl
        exact hplace hown
      exact (hback place).trans (hrest place hne).symm

/-- A socket is bound over one that nobody listens to, beside a file. -/
theorem bind_spares_stale :
    let settings : Settings := { socketPath := utf8 "/run/courier/s", socketMode := 432 }
    let files : Files := ⟨[(["run"], .directory), (["run", "courier"], .directory),
      (["run", "courier", "s"], .socket .refused 493), (["run", "notes"], .file [7])], []⟩
    let bound := bind Files.kernel settings files
    Files.kernel.Laws Files.view ∧ bound.1 = .ok () ∧
      Files.kernel.lookUp bound.2 settings.path = .ok (.socket 432) ∧
      Files.kernel.lookUp (unbind Files.kernel settings bound.2) settings.path =
        .error .noEntry := by
  intro settings files bound
  have hsome : bound.1.toOption = some () := by decide +kernel
  have hok : bound.1 = .ok () := by
    cases hresult : bound.1 with
    | error e =>
      rw [hresult] at hsome
      cases hsome
    | ok _ => rfl
  obtain ⟨-, -, -, -, -, -, hbound⟩ := bind_spares Files.laws settings files
  obtain ⟨-, hlook, -, hgone, -⟩ := hbound hok
  exact ⟨Files.laws, hok, hlook, hgone⟩

end Socket

end Courier
