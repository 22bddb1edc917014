import PoolKeeper.Proofs.Files
import PoolKeeper.Service.PoolSnapshot

/-!
# `PoolKeeper/Proofs/SnapshotView.lean` — the view of a snapshot on a disk

A backup fails if the view of its snapshot is not where the pool has it. The name of the snapshot is made
of the time, so it is plain and short for every instant that can be written down
(`isPlain_baseName`), and a disk can have the view under it (`isThere_view`).
-/

set_option autoImplicit false

namespace PoolKeeper

open Text

/-! ## Times as names -/

theorem utf8ByteSize_ofList_le : ∀ cs : List Char, (String.ofList cs).utf8ByteSize ≤ 4 * cs.length
  | [] => by simp
  | c :: cs => by
    have ih := utf8ByteSize_ofList_le cs
    have hc := c.utf8Size_le_four
    rw [String.ofList_cons, String.utf8ByteSize_append, String.utf8ByteSize_singleton,
      List.length_cons]
    omega

theorem mem_padded {width n : Nat} {c : Char} (h : c ∈ padded width n) : c.isDigit := by
  rcases List.mem_append.mp h with h | h
  · rw [(List.mem_replicate.mp h).2]
    rfl
  · exact Nat.isDigit_of_mem_toDigits (by decide) (by decide) h

theorem length_padded_le {width n : Nat} (hwidth : width ≤ 6) (hn : n < 1000000) :
    (padded width n).length ≤ 6 := by
  have h : (decimal n).length ≤ 6 := (Nat.length_toDigits_le_iff (by decide) (by decide)).mpr hn
  simp only [padded, List.length_append, List.length_replicate]
  omega

theorem Date.ofDays_small {days : Int} (h : Instant.isDayInRange days) :
    (Date.ofDays days).year.natAbs < 1000000 ∧ (Date.ofDays days).month < 1000000 ∧
      (Date.ofDays days).day < 1000000 := by
  simp only [Instant.isDayInRange, Bool.and_eq_true, decide_eq_true_eq] at h
  have hfirst : (Date.mk Instant.firstYear 1 1).toDays = -96465292 := by rfl
  have hlast : (Date.mk Instant.lastYear 12 31).toDays = 95026236 := by rfl
  rw [hfirst, hlast] at h
  simp only [Date.ofDays]
  refine ⟨?_, ?_, ?_⟩
  · omega
  · split <;> omega
  · omega

theorem Date.mem_yearChars {year : Int} {c : Char} (h : c ∈ yearChars year) :
    c.isDigit ∨ c = '-' ∨ c = '+' := by
  unfold yearChars at h
  split at h
  · exact .inl (mem_padded h)
  · rcases List.mem_cons.mp h with rfl | h
    · split <;> simp
    · exact .inl (mem_padded h)

/-- The characters of a compact time. -/
theorem Instant.mem_compactText {t : Instant} {c : Char} (h : c ∈ t.compactText.toList) :
    c.isDigit ∨ c = '-' ∨ c = '+' := by
  simp only [compactText, String.toList_ofList, List.mem_append, List.mem_cons] at h
  rcases h with ((((h | h) | h) | rfl | h) | h) | h
  · exact Date.mem_yearChars h
  · exact .inl (mem_padded h)
  · exact .inl (mem_padded h)
  · exact .inr (.inl rfl)
  all_goals exact .inl (mem_padded h)

theorem Instant.length_compactText_le {t : Instant} (h : t.isRepresentable) :
    t.compactText.toList.length ≤ 38 := by
  have hday : isDayInRange t.days := by
    simp only [isRepresentable, Bool.and_eq_true] at h
    exact h.1
  obtain ⟨hyear, hmonth, hday⟩ : t.date.year.natAbs < 1000000 ∧ t.date.month < 1000000 ∧
      t.date.day < 1000000 := Date.ofDays_small hday
  have hyears : (Date.yearChars t.date.year).length ≤ 7 := by
    unfold Date.yearChars
    split
    · have hshort : (padded 4 t.date.year.toNat).length ≤ 6 := length_padded_le (by decide) (by omega)
      omega
    · have hshort : (padded 4 t.date.year.natAbs).length ≤ 6 := length_padded_le (by decide) hyear
      simp only [List.length_cons]
      omega
  have hsecond : t.secondOfDay < 86400 := by
    unfold secondOfDay
    omega
  have hfield (n : Nat) (hn : n < 1000000) : (padded 2 n).length ≤ 6 :=
    length_padded_le (by decide) hn
  have h₁ := hfield t.date.month hmonth
  have h₂ := hfield t.date.day hday
  have h₃ := hfield t.hour (by unfold hour; omega)
  have h₄ := hfield t.minute (by unfold minute; omega)
  have h₅ := hfield t.second (by unfold second; split <;> omega)
  simp only [compactText, String.toList_ofList, List.length_append, List.length_cons]
  omega

/-! ## A view that is there -/

theorem Path.pieces_of_plain {cs : List Char} (h : '/' ∉ cs) :
    ∀ passed current, Path.pieces passed current cs = [(current.reverse ++ cs, passed + cs.length)] := by
  induction cs with
  | nil => simp [Path.pieces]
  | cons c cs ih =>
    intro passed current
    rw [List.mem_cons, not_or] at h
    simp [Path.pieces, Ne.symm h.1, ih h.2]
    omega

theorem Path.isAbsolute_of_noSlash {path : String} (h : '/' ∉ path.toList) :
    Path.isAbsolute path = false := by
  unfold Path.isAbsolute
  cases hchars : path.toList with
  | nil => rfl
  | cons c cs =>
    rw [hchars, List.mem_cons, not_or] at h
    simpa using Ne.symm h.1

namespace PoolSnapshot

/-- What a name of a snapshot has to be for the disk. -/
structure IsPlain (name : String) : Prop where
  nonempty : name ≠ ""
  noDot : name ≠ "." ∧ name ≠ ".."
  noSlash : '/' ∉ name.toList
  noNul : '\x00' ∉ name.toList
  short : name.toList.length ≤ 63

/-- The first name that a backup tries. -/
theorem isPlain_baseName {t : Instant} (h : t.isRepresentable) : IsPlain (baseName .backup t) := by
  have hchars : (baseName .backup t).toList = ['k', 'o', 'p', 'i', 'a', '-'] ++ t.compactText.toList := by
    rw [baseName, String.toList_append]
    rfl
  have hlength : 6 ≤ (baseName .backup t).toList.length := by
    rw [hchars, List.length_append]
    exact Nat.le_add_right _ _
  have hplain (c : Char) (hdigit : c.isDigit = false) (hmark : c ∉ ['k', 'o', 'p', 'i', 'a', '-', '+']) :
      c ∉ (baseName .backup t).toList := by
    rw [hchars, List.mem_append]
    rintro (hmem | hmem)
    · simp_all
    · rcases Instant.mem_compactText hmem with h | rfl | rfl <;> simp_all
  refine ⟨?_, ⟨?_, ?_⟩, hplain '/' rfl (by decide), hplain '\x00' rfl (by decide), ?_⟩
  · intro hname
    simp [hname] at hlength
  · intro hname
    simp [hname] at hlength
  · intro hname
    simp [hname] at hlength
  · have hshort := Instant.length_compactText_le h
    rw [hchars, List.length_append]
    simp only [List.length_cons, List.length_nil]
    omega

/-- A disk with the view of one snapshot of the pool that is mounted at the root. -/
def viewDisk (name : String) : Disk :=
  ⟨[([".zfs"], .newDirectory), (["snapshot", ".zfs"], .newDirectory),
    ([name, "snapshot", ".zfs"], .newDirectory)]⟩

theorem viewPath_root {name : String} (h : IsPlain name) :
    viewPath "/" name = "/.zfs/snapshot/" ++ name := by
  have hrelative : Path.isAbsolute name = false := Path.isAbsolute_of_noSlash h.noSlash
  have hparent : Path.join (Path.join "/" ".zfs") "snapshot" = "/.zfs/snapshot" := by decide +kernel
  rw [viewPath, hparent]
  simp [Path.join, hrelative]

theorem steps_view {name : String} (h : IsPlain name) :
    Path.steps ("/.zfs/snapshot/" ++ name) = [".zfs", "snapshot", name] := by
  have hname : name.toList ≠ [] := by simpa using h.nonempty
  have hlast : ("/.zfs/snapshot/" ++ name).toList.getLast? ≠ some '/' := by
    rw [String.toList_append, List.getLast?_append, List.getLast?_eq_some_getLast hname,
      Option.some_or]
    exact fun hslash => h.noSlash (Option.some.inj hslash ▸ List.getLast_mem hname)
  have hchars : ("/.zfs/snapshot/" ++ name).toList =
    ['/', '.', 'z', 'f', 's', '/', 's', 'n', 'a', 'p', 's', 'h', 'o', 't', '/'] ++ name.toList := by
    rw [String.toList_append]
    rfl
  simp only [Path.steps, beq_iff_eq, hlast, if_false]
  rw [hchars]
  simp [Path.pieces, Path.pieces_of_plain h.noSlash, hname]

theorem resolve_view {name : String} (h : IsPlain name) (cwd : Loc) :
    (viewDisk name).resolve cwd true ("/.zfs/snapshot/" ++ name) =
      .ok [name, "snapshot", ".zfs"] := by
  have hsize : name.utf8ByteSize ≤ 252 := by
    have hbytes := utf8ByteSize_ofList_le name.toList
    rw [String.ofList_toList] at hbytes
    have hshort := h.short
    omega
  have hnul : ("/.zfs/snapshot/" ++ name).toList.contains '\x00' = false := by
    simpa [String.toList_append] using h.noNul
  have hfits : ¬ ("/.zfs/snapshot/" ++ name).utf8ByteSize > Disk.maxPath := by
    have hfixed : ("/.zfs/snapshot/" : String).utf8ByteSize = 15 := by decide +kernel
    rw [String.utf8ByteSize_append, hfixed, Disk.maxPath]
    omega
  have habsolute : Path.isAbsolute ("/.zfs/snapshot/" ++ name) = true := by
    simp [Path.isAbsolute, String.toList_append]
  have hleg : (viewDisk name).leg true [] [".zfs", "snapshot", name] =
      .ok (.finished [name, "snapshot", ".zfs"]) := by
    have hfixed : (".zfs" : String).utf8ByteSize = 4 ∧ ("snapshot" : String).utf8ByteSize = 8 := by
      decide +kernel
    simp [Disk.leg, Disk.get?, viewDisk, List.lookup_cons, Entry.newDirectory, hfixed, h.noDot,
      Disk.maxName]
    omega
  unfold Disk.resolve
  rw [hnul, if_neg (by simp), if_neg (by simp), if_neg hfits, habsolute, steps_view h]
  simp [Disk.walk, Disk.stands, hleg]

theorem isThere_view {name : String} (h : IsPlain name) (m : Machine) :
    ((Files.isThere (viewPath "/" name)).run { m with disk := viewDisk name }).1 = true := by
  have hentry : (viewDisk name).get? [name, "snapshot", ".zfs"] = some .newDirectory := by
    simp [Disk.get?, viewDisk, List.lookup_cons]
  rw [Files.isThere, Files.run_test, Files.run_found?, viewPath_root h, resolve_view h]
  simp [Except.map, hentry, Except.toOption]
end PoolSnapshot

end PoolKeeper
