import PoolKeeper.Proofs.Joined

/-!
# `PoolKeeper/Proofs/Stacked.lean` — files that come into a directory and go again

`Disk.Stacked` relates a disk to one with new private files in one of its directories. Putting another one
there gives such a disk again (`Stacked.put`), and so does taking one away (`Stacked.clear`), whichever it
is. A disk from which all of them were taken is the disk from before (`Stacked.eq_of_nil`), and not merely
one that looks like it. In between every path leads to the directories that it led to (`Stacked.ways`).
-/

set_option autoImplicit false

namespace PoolKeeper.Disk

variable {d d' : Disk} {loc loc' : Loc} {name : String} {bytes : ByteArray}
  {files front back : List (String × ByteArray)}

/-- Nothing on the disk is called so in the directory, not even anything that is hidden by what was put
over it. -/
def Vacant (d : Disk) (loc : Loc) (name : String) : Prop := ∀ x ∈ d.entries, x.1 ≠ name :: loc

theorem Vacant.get? (h : d.Vacant loc name) : d.get? (name :: loc) = none := by
  rw [Disk.get?, if_neg (List.cons_ne_nil _ _), List.lookup_eq_none_iff]
  intro x hx
  simpa using Ne.symm (h x hx)

theorem vacant_of_get? (h : d.get? (name :: loc) = none) : d.Vacant loc name := by
  rw [Disk.get?, if_neg (List.cons_ne_nil _ _), List.lookup_eq_none_iff] at h
  intro x hx heq
  have hne := h x hx
  rw [heq] at hne
  simp at hne

theorem Vacant.filter_eq (h : d.Vacant loc name) :
    (d.entries.filter fun x => x.1 ≠ name :: loc) = d.entries := by
  rw [List.filter_eq_self]
  intro x hx
  exact decide_eq_true (h x hx)

theorem names_filter (d : Disk) (name : String) :
    (Disk.mk (d.entries.filter fun x => x.1 ≠ name :: loc)).names loc =
      (d.names loc).filter (· ≠ name) := by
  rw [names, names]
  induction d.entries with
  | nil => rfl
  | cons x xs ih =>
    obtain ⟨_ | ⟨other, dir⟩, e⟩ := x
    · simpa using ih
    · by_cases hdir : dir = loc
      · subst hdir
        by_cases hname : other = name
        · simpa [hname] using ih
        · simpa [hname] using ih
      · simpa [hdir] using ih

theorem not_mem_names (h : d.Vacant loc name) : name ∉ d.names loc := by
  intro hmem
  obtain ⟨⟨place, e⟩, hx, hname⟩ := List.mem_filterMap.mp hmem
  rcases place with _ | ⟨other, dir⟩
  · cases hname
  · simp only at hname
    split at hname
    next hdir =>
      cases hname
      exact h _ hx (by rw [hdir])
    next => cases hname

/-- `d'` is `d` with new private files in a directory, no two of one name. -/
structure Stacked (d : Disk) (loc : Loc) (files : List (String × ByteArray)) (d' : Disk) : Prop where
  vacant : ∀ f ∈ files, d.Vacant loc f.1
  nodup : (files.map (·.1)).Nodup
  found : ∀ f ∈ files, d'.get? (f.1 :: loc) = some (.privateFile f.2)
  names : (d'.names loc).Perm (files.map (·.1) ++ d.names loc)
  /-- The rest of the table is the table from before. -/
  others : (d'.entries.filter fun x => x.1 ∉ files.map (·.1 :: loc)) = d.entries

namespace Stacked

theorem none (d : Disk) (loc : Loc) : Stacked d loc [] d where
  vacant := by simp
  nodup := List.nodup_nil
  found := by simp
  names := .refl _
  others := by simp

theorem eq_of_nil (h : Stacked d loc [] d') : d' = d := by
  have hentries : d'.entries = d.entries := by
    rw [← h.others]
    exact (List.filter_eq_self.mpr (by simp)).symm
  cases d
  cases d'
  exact congrArg Disk.mk hentries

/-- What is neither a new file nor in the place of one is as it was. -/
theorem get?_of_ne (h : Stacked d loc files d') (hne : ∀ f ∈ files, loc' ≠ f.1 :: loc) :
    d'.get? loc' = d.get? loc' := by
  have hkept : loc' ∉ files.map (·.1 :: loc) := by
    intro hmem
    obtain ⟨f, hf, rfl⟩ := List.mem_map.mp hmem
    exact hne f hf rfl
  have hlookup := lookup_filter (fun x => x ∉ files.map (·.1 :: loc)) d'.entries loc'
  rw [h.others, if_pos (decide_eq_true hkept)] at hlookup
  rw [Disk.get?, Disk.get?, hlookup]

/-- The directory itself is none of its files. -/
theorem get?_dir (h : Stacked d loc files d') : d'.get? loc = d.get? loc :=
  h.get?_of_ne fun f _ heq => absurd (congrArg List.length heq) (by simp)

/-- The new files stand in nobody's way. -/
theorem ways (h : Stacked d loc files d') : d.Ways d' := by
  have hkept {loc' : Loc} {e : Entry} (he : d.get? loc' = some e) : d'.get? loc' = some e := by
    rw [h.get?_of_ne, he]
    rintro f hf rfl
    rw [(h.vacant f hf).get?] at he
    cases he
  constructor
  · intro loc' hdir
    obtain ⟨mode, hmode⟩ := hdir
    exact ⟨mode, hkept hmode⟩
  · intro loc' target htarget
    exact hkept htarget

theorem not_link (h : Stacked d loc files d') (hvacant : d.Vacant loc name) (target : String) :
    d'.get? (name :: loc) ≠ some (.link target) := by
  intro hlink
  by_cases hfile : ∃ f ∈ files, name :: loc = f.1 :: loc
  · obtain ⟨f, hf, heq⟩ := hfile
    cases heq
    cases (h.found f hf).symm.trans hlink
  · rw [h.get?_of_ne fun f hf heq => hfile ⟨f, hf, heq⟩, hvacant.get?] at hlink
    cases hlink

/-! ## One more and one less -/

theorem put (h : Stacked d loc files d') (hvacant : d.Vacant loc name)
    (hnone : d'.get? (name :: loc) = Option.none) :
    Stacked d loc ((name, bytes) :: files) (d'.put (name :: loc) (.privateFile bytes)) := by
  have hnew : d'.Vacant loc name := vacant_of_get? hnone
  have hname : ∀ f ∈ files, f.1 ≠ name := by
    rintro f hf rfl
    cases (h.found f hf).symm.trans hnone
  have hput : d'.put (name :: loc) (.privateFile bytes) =
      ⟨(name :: loc, .privateFile bytes) :: d'.entries⟩ := by rw [Disk.put, hnew.filter_eq]
  refine ⟨?_, ?_, ?_, ?_, ?_⟩
  · rw [List.forall_mem_cons]
    exact ⟨hvacant, h.vacant⟩
  · rw [List.map_cons, List.nodup_cons]
    refine ⟨fun hmem => ?_, h.nodup⟩
    obtain ⟨f, hf, heq⟩ := List.mem_map.mp hmem
    exact hname f hf heq
  · rw [List.forall_mem_cons]
    refine ⟨get?_put (List.cons_ne_nil _ _) _, fun f hf => ?_⟩
    rw [get?_put_of_ne fun heq => hname f hf (List.cons.inj heq).1]
    exact h.found f hf
  · rw [hput]
    simpa [Disk.names] using h.names
  · have hrest : (d'.entries.filter fun x => x.1 ∉ (name :: loc) :: files.map (·.1 :: loc)) =
        (d'.entries.filter fun x => x.1 ≠ name :: loc).filter fun x =>
          x.1 ∉ files.map (·.1 :: loc) := by
      rw [List.filter_filter]
      congr 1
      funext x
      rw [Bool.eq_iff_iff]
      simp [and_comm]
    rw [hput, List.map_cons, List.filter_cons, if_neg (by simp), hrest, hnew.filter_eq, h.others]

/-- Taking one of the files away leaves the others. -/
theorem clear (h : Stacked d loc (front ++ (name, bytes) :: back) d') :
    Stacked d loc (front ++ back) (d'.clear (name :: loc)) := by
  have hmiddle := (List.perm_middle.map (fun f : String × ByteArray => f.1)).nodup_iff.mp h.nodup
  rw [List.map_cons, List.nodup_cons] at hmiddle
  -- No other file of the stack has this name.
  obtain ⟨hname, hnodup⟩ := hmiddle
  have hsub : ∀ f ∈ front ++ back, f ∈ front ++ (name, bytes) :: back := by
    intro f hf
    rw [List.mem_append] at hf
    simp only [List.mem_append, List.mem_cons]
    exact hf.imp_right .inr
  have hvacant : d.Vacant loc name := h.vacant (name, bytes) (by simp)
  refine ⟨fun f hf => h.vacant f (hsub f hf), hnodup, fun f hf => ?_, ?_, ?_⟩
  · have hne : f.1 :: loc ≠ name :: loc := by
      intro heq
      exact hname (List.mem_map.mpr ⟨f, hf, (List.cons.inj heq).1⟩)
    rw [get?_clear_of_ne d' hne]
    exact h.found f (hsub f hf)
  · have hleft := h.names.filter (· ≠ name)
    have hfiles : ((front ++ (name, bytes) :: back).map (·.1)).filter (· ≠ name) =
        (front ++ back).map (·.1) := by
      have hkept : ((front ++ back).map (·.1)).filter (· ≠ name) = (front ++ back).map (·.1) := by
        rw [List.filter_eq_self]
        rintro other hother
        exact decide_eq_true fun heq => hname (heq ▸ hother)
      rw [← hkept]
      simp
    have hnames : (d.names loc).filter (· ≠ name) = d.names loc := by
      rw [List.filter_eq_self]
      rintro other hother
      exact decide_eq_true fun heq => not_mem_names hvacant (heq ▸ hother)
    rw [List.filter_append, hfiles, hnames] at hleft
    rw [Disk.clear, names_filter]
    exact hleft
  · rw [Disk.clear, List.filter_filter, ← h.others]
    congr 1
    funext x
    rw [Bool.eq_iff_iff]
    simp only [List.map_append, List.map_cons, List.mem_append, List.mem_cons, Bool.and_eq_true,
      decide_eq_true_eq, not_or]
    grind

/-- What is put in the place of the root is not seen. -/
theorem putRoot {e : Entry} (h : Stacked d loc files d') (hroot : d.put [] e = d) :
    Stacked d loc files (d'.put [] e) := by
  refine ⟨h.vacant, h.nodup, fun f hf => ?_, ?_, ?_⟩
  · rw [get?_put_of_ne (List.cons_ne_nil _ _)]
    exact h.found f hf
  · have hnames : (d'.put [] e).names loc = d'.names loc := by
      change (d'.entries.filter fun x => x.1 ≠ []).filterMap _ = d'.entries.filterMap _
      rw [List.filterMap_filter]
      congr 1
      funext x
      obtain ⟨_ | ⟨other, dir⟩, e⟩ := x <;> simp
    rw [hnames]
    exact h.names
  · have hrest : ((d'.entries.filter fun x => x.1 ≠ []).filter fun x =>
        x.1 ∉ files.map (·.1 :: loc)) = d.entries.filter fun x => x.1 ≠ [] := by
      rw [← h.others, List.filter_filter, List.filter_filter]
      congr 1
      funext x
      rw [Bool.and_comm]
    have hkept : ([], e) :: (d.entries.filter fun x => x.1 ≠ []) = d.entries := congrArg entries hroot
    rw [Disk.put, List.filter_cons, if_pos (by simp), hrest, hkept]

end Stacked

end PoolKeeper.Disk
