import PoolKeeper.Proofs.Walks

/-!
# `PoolKeeper/Proofs/Paths.lean` — paths and the steps along them

`Path.parent?` works on the text of a path and `Path.steps` on what a walk makes of it. They agree: the
steps of the parent come first among the steps of the path (`steps_parent`), so whoever gets along the
path comes by the parent.
-/

set_option autoImplicit false

namespace PoolKeeper.Path

theorem pieces_take {passed : Nat} {current cs : List Char} {front back : List (List Char × Nat)}
    {name : List Char} {stop : Nat} (h : pieces passed current cs = front ++ (name, stop) :: back) :
    passed ≤ stop ∧ pieces passed current (cs.take (stop - passed)) = front ++ [(name, stop)] := by
  induction cs generalizing passed current front with
  | nil =>
    rw [pieces] at h
    rcases front with _ | ⟨x, front⟩
    · obtain ⟨h, -⟩ := List.cons.inj h
      cases h
      simp [pieces]
    · exact absurd (List.cons.inj h).2.symm (by simp)
  | cons c cs ih =>
    -- In both cases below the rest is cut in the same place.
    have hstep {current' : List Char} {front' : List (List Char × Nat)}
        (h' : pieces (passed + 1) current' cs = front' ++ (name, stop) :: back) : passed ≤ stop ∧
          (c :: cs).take (stop - passed) = c :: cs.take (stop - (passed + 1)) ∧
          pieces (passed + 1) current' (cs.take (stop - (passed + 1))) = front' ++ [(name, stop)] := by
      obtain ⟨hle, hpieces⟩ := ih h'
      refine ⟨by omega, ?_, hpieces⟩
      rw [show stop - passed = stop - (passed + 1) + 1 by omega, List.take_succ_cons]
    rw [pieces] at h
    split at h
    next hslash =>
      rcases front with _ | ⟨x, front⟩
      · obtain ⟨h, -⟩ := List.cons.inj h
        cases h
        simp [pieces]
      · obtain ⟨rfl, h'⟩ := List.cons.inj h
        obtain ⟨hle, htake, hpieces⟩ := hstep h'
        refine ⟨hle, ?_⟩
        rw [htake, pieces, if_pos hslash, hpieces]
        rfl
    next hslash =>
      obtain ⟨hle, htake, hpieces⟩ := hstep h
      refine ⟨hle, ?_⟩
      rw [htake, pieces, if_neg hslash, hpieces]

theorem pieces_ne_nil (passed : Nat) (current cs : List Char) : pieces passed current cs ≠ [] := by
  induction cs generalizing passed current with
  | nil => simp [pieces]
  | cons c cs ih =>
    rw [pieces]
    split
    · simp
    · exact ih _ _

/-- After a slash at the end there is nothing. -/
theorem name_eq_nil_of_slash {passed : Nat} {current cs name : List Char} {stop : Nat}
    (h : (pieces passed current cs).getLast? = some (name, stop)) (hslash : cs.getLast? = some '/') :
    name = [] := by
  induction cs generalizing passed current with
  | nil => cases hslash
  | cons c cs ih =>
    have hrest : cs ≠ [] → cs.getLast? = some '/' := by
      intro hcs
      obtain ⟨d, cs, rfl⟩ := List.exists_cons_of_ne_nil hcs
      exact List.getLast?_cons_cons ▸ hslash
    rw [pieces] at h
    split at h
    next =>
      obtain ⟨x, xs, hx⟩ := List.exists_cons_of_ne_nil (pieces_ne_nil (passed + 1) [] cs)
      rw [hx, List.getLast?_cons_cons, ← hx] at h
      by_cases hcs : cs = []
      · subst hcs
        cases h
        rfl
      · exact ih h (hrest hcs)
    next hne =>
      by_cases hcs : cs = []
      · subst hcs
        cases hslash
        exact absurd rfl hne
      · exact ih h (hrest hcs)

/-- The parent of a path is where a walk along the path comes by, up to what the rest of the path is:
the place it starts from, the root, or a place inside. -/
theorem steps_parent {path parent : String} (h : parent? path = some parent) :
    (parent = "" ∧ isAbsolute path = false) ∨ (parent = "/" ∧ isAbsolute path) ∨
      parent ≠ "" ∧ parent.toList.getLast? ≠ some '/' ∧ isAbsolute parent = isAbsolute path ∧
        (∃ more, path = parent ++ more) ∧ ∃ rest ≠ [], steps path = steps parent ++ rest := by
  rw [parent?] at h
  split at h
  next => cases h
  next last name stop before hcomponents =>
    cases h
    obtain ⟨lastName, lastStop⟩ := last
    refine .inr (.inr ?_)
    -- The parent ends where the last name but one does. Only empty pieces and the last name follow it.
    have hfilter := congrArg List.reverse hcomponents
    rw [List.reverse_reverse, components, List.reverse_cons, List.reverse_cons, List.append_assoc,
      List.filter_eq_append_iff] at hfilter
    obtain ⟨first, second, hpieces, -, hsecond⟩ := hfilter
    obtain ⟨skipped, back, rfl, -, hname, hback⟩ := List.filter_eq_cons_iff.mp hsecond
    rw [← List.append_assoc] at hpieces
    have hne : name ≠ [] := by
      rintro rfl
      simp at hname
    obtain ⟨-, htake⟩ := pieces_take hpieces
    rw [Nat.sub_zero] at htake
    -- It ends with that name, so it is not empty and does not end with a slash.
    have hkept : path.toList.take stop ≠ [] := by
      intro hnil
      have hpiece := congrArg List.getLast? htake
      rw [hnil, List.getLast?_concat] at hpiece
      cases hpiece
      exact hne rfl
    have hstop : stop ≠ 0 := by
      rintro rfl
      exact hkept rfl
    have hopen : (path.toList.take stop).getLast? ≠ some '/' := fun hslash =>
      hne (name_eq_nil_of_slash (by rw [htake, List.getLast?_concat]) hslash)
    have hlast := List.mem_singleton_self (lastName, lastStop)
    rw [show [(lastName, lastStop)] = _ from hback.symm] at hlast
    obtain ⟨hlast, hmore⟩ := List.mem_filter.mp hlast
    have hmore : lastName ≠ [] := by
      rintro rfl
      simp at hmore
    refine ⟨fun h => hkept (by simpa using congrArg String.toList h), by simpa using hopen, ?_,
      ⟨String.ofList (path.toList.drop stop), ?_⟩, ((back.map (·.1)).filter (!·.isEmpty) ++
        if path.toList.getLast? == some '/' then [['.']] else []).map String.ofList, ?_, ?_⟩
    · simp [isAbsolute, List.head?_take, hstop]
    · rw [← String.ofList_append, List.take_append_drop, String.ofList_toList]
    · have hpart : lastName ∈ (back.map (·.1)).filter (!·.isEmpty) :=
        List.mem_filter.mpr ⟨List.mem_map_of_mem hlast, by simpa using hmore⟩
      simp [List.ne_nil_of_mem hpart]
    · simp [steps, htake, hpieces, hopen, hne]
  next only hcomponents =>
    cases h
    cases habsolute : isAbsolute path with
    | true => exact .inr (.inl ⟨rfl, rfl⟩)
    | false => exact .inl ⟨rfl, rfl⟩

theorem getLast?_ne_slash {path : String} (h : Disk.EndsInName (steps path)) :
    path.toList.getLast? ≠ some '/' := by
  intro hslash
  obtain ⟨last, hlast, hdot, -⟩ := h
  simp [steps, hslash] at hlast
  exact hdot hlast.symm

theorem dropSlashes_of_ne_slash {path : String} (hopen : path.toList.getLast? ≠ some '/') :
    dropSlashes path = path := by
  have hkept : path.toList.reverse.dropWhile (· == '/') = path.toList.reverse := by
    rw [← List.head?_reverse] at hopen
    cases hchars : path.toList.reverse with
    | nil => rfl
    | cons c cs =>
      rw [hchars] at hopen
      rw [List.dropWhile_cons_of_neg (by simpa using hopen)]
  rw [dropSlashes, hkept, List.reverse_reverse]
  split
  · rfl
  · exact String.ofList_toList

theorem dropSlashes_eq {path : String} (h : Disk.EndsInName (steps path)) :
    dropSlashes path = path := dropSlashes_of_ne_slash (getLast?_ne_slash h)

theorem dropSlashes_parent {path parent : String} (h : parent? path = some parent) :
    dropSlashes parent = parent := by
  rcases steps_parent h with ⟨rfl, -⟩ | ⟨rfl, -⟩ | ⟨-, hopen, -⟩
  · decide
  · decide
  · exact dropSlashes_of_ne_slash hopen

/-- A path that ends in a name has a parent. -/
theorem exists_parent {path : String} (h : Disk.EndsInName (steps path)) :
    ∃ parent, parent? path = some parent := by
  have hopen := getLast?_ne_slash h
  obtain ⟨last, hlast, hdot, -⟩ := h
  have hname : last ∈ steps path := List.mem_of_getLast? hlast
  simp only [steps, hopen, beq_iff_eq, if_false, List.append_nil, List.mem_map, List.mem_filter] at hname
  obtain ⟨_, ⟨⟨⟨name, stop⟩, hpiece, rfl⟩, hne⟩, rfl⟩ := hname
  have hcomponent : (name, stop) ∈ components path := by
    refine List.mem_filter.mpr ⟨hpiece, ?_⟩
    have hdot' : name ≠ ['.'] := by
      rintro rfl
      exact hdot rfl
    simpa [hdot'] using hne
  rw [parent?]
  split
  next hnone => simp [List.reverse_eq_nil_iff.mp hnone] at hcomponent
  next => exact ⟨_, rfl⟩
  next => exact ⟨_, rfl⟩

end PoolKeeper.Path
