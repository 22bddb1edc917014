import PoolKeeper.Disk.Basic

/-!
# `PoolKeeper/Proofs/Walks.lean` — where walks end

`Disk.Walks` is a walk as a derivation, one rule for each kind of step, so that what is said of walks is
proved by induction on the steps that were really made (`walk_eq_ok_iff`). A walk that starts from a
directory that stands visits only directories that stand (`Walks.stands`), every walk is the
continuation of a shorter one (`Walks.split`), and a walk to a name ends with that one step
(`Walks.exists_last`).

Two changes of the disk matter to whoever reads a file again. Where the directories and the links are
left (`Ways`), only the last step of a walk can fail or go elsewhere (`Ways.walks_of_last`). Where a file
is put at the end of a walk, the same path leads to that file or nowhere (`Walks.put`).
-/

set_option autoImplicit false

namespace PoolKeeper.Disk

/-! ## The table -/

theorem get?_root (d : Disk) : d.get? [] = some .newDirectory := by simp [get?]

theorem ne_root {d : Disk} {loc : Loc} (h : ∀ mode, d.get? loc ≠ some (.directory mode)) :
    loc ≠ [] := by
  rintro rfl
  exact h _ d.get?_root

theorem get?_put {d : Disk} {loc : Loc} (hloc : loc ≠ []) (e : Entry) :
    (d.put loc e).get? loc = some e := by
  simp [get?, put, hloc]

/-- Looking something up where only some of the places are left. -/
theorem lookup_filter (kept : Loc → Bool) (es : List (Loc × Entry)) (loc : Loc) :
    (es.filter fun x => kept x.1).lookup loc = if kept loc then es.lookup loc else none := by
  induction es with
  | nil => simp
  | cons x es ih =>
    obtain ⟨loc', e⟩ := x
    by_cases hloc : loc = loc'
    · subst hloc
      cases hkept : kept loc with
      | false => simpa [hkept] using ih
      | true => simp [hkept]
    · have hne : (loc == loc') = false := by simpa using hloc
      cases hkept : kept loc' <;> simpa [hkept, List.lookup_cons, hne] using ih

theorem get?_put_of_ne {d : Disk} {loc loc' : Loc} (h : loc' ≠ loc) (e : Entry) :
    (d.put loc e).get? loc' = d.get? loc' := by
  have hne : (loc' == loc) = false := by simpa using h
  have hlookup := lookup_filter (fun x => x ≠ loc) d.entries loc'
  simp only [get?, put, List.lookup_cons, hne, hlookup]
  simp [h]

/-- Everything that is on the disk is on the other one as well. -/
def Below (d' d : Disk) : Prop := ∀ loc e, d'.get? loc = some e → d.get? loc = some e

/-- Keeping only some of the places takes things away. -/
theorem filter_below (d : Disk) (kept : Loc → Bool) :
    Below ⟨d.entries.filter fun x => kept x.1⟩ d := by
  intro loc e h
  have hlookup := lookup_filter kept d.entries loc
  simp only [get?, hlookup] at h ⊢
  split at h
  next hroot => rw [if_pos hroot, h]
  next hroot =>
    split at h
    next => rw [if_neg hroot, h]
    next => cases h

theorem clear_below (d : Disk) (loc : Loc) : (d.clear loc).Below d :=
  d.filter_below fun x => x ≠ loc

theorem clearTree_below (d : Disk) (loc : Loc) : (d.clearTree loc).Below d :=
  d.filter_below fun x => !loc.isSuffixOf x

/-! ## Walks as derivations -/

/-- A step that goes on to what is called so, and not on the spot or back. -/
def IsName (name : String) : Prop := name ≠ "." ∧ name ≠ ".."

/-- The last step is a name. -/
def EndsInName (steps : List String) : Prop := ∃ name, steps.getLast? = some name ∧ IsName name

namespace EndsInName

variable {steps : List String}

theorem append (first : List String) (h : EndsInName steps) : EndsInName (first ++ steps) := by
  obtain ⟨name, hlast, hname⟩ := h
  exact ⟨name, by rw [List.getLast?_append, hlast]; rfl, hname⟩

theorem tail {step : String} (h : EndsInName (step :: steps)) (hsteps : steps ≠ []) :
    EndsInName steps := by
  obtain ⟨next, steps, rfl⟩ := List.exists_cons_of_ne_nil hsteps
  obtain ⟨name, hlast, hname⟩ := h
  exact ⟨name, List.getLast?_cons_cons ▸ hlast, hname⟩

theorem tail_of_not {step : String} (h : EndsInName (step :: steps)) (hstep : ¬ IsName step) :
    EndsInName steps := by
  refine h.tail ?_
  rintro rfl
  obtain ⟨name, hlast, hname⟩ := h
  cases hlast
  exact hstep hname

end EndsInName

/-- A walk from a directory along some steps, following at most `links` links, ends at a place. -/
inductive Walks (d : Disk) (follow : Bool) : (links : Nat) → Loc → List String → Loc → Prop
  | done {links : Nat} {dir : Loc} : Walks d follow links dir [] dir
  | here {links : Nat} {dir loc : Loc} {rest : List String} (h : Walks d follow links dir rest loc) :
    Walks d follow links dir ("." :: rest) loc
  | up {links : Nat} {dir loc : Loc} {rest : List String}
    (h : Walks d follow links dir.tail rest loc) : Walks d follow links dir (".." :: rest) loc
  | last {links : Nat} {dir : Loc} {name : String} (hname : IsName name)
    (hshort : name.utf8ByteSize ≤ maxName) (hdir : ∀ mode, d.get? (name :: dir) ≠ some (.directory mode))
    (hlink : ∀ target, d.get? (name :: dir) = some (.link target) → follow = false) :
    Walks d follow links dir [name] (name :: dir)
  | down {links : Nat} {dir loc : Loc} {name : String} {rest : List String} {mode : Nat}
    (hname : IsName name) (hshort : name.utf8ByteSize ≤ maxName)
    (hdir : d.get? (name :: dir) = some (.directory mode))
    (h : Walks d follow links (name :: dir) rest loc) : Walks d follow links dir (name :: rest) loc
  | link {links : Nat} {dir loc : Loc} {name target : String} {rest : List String}
    (hname : IsName name) (hshort : name.utf8ByteSize ≤ maxName)
    (hlink : d.get? (name :: dir) = some (.link target)) (hon : rest = [] → follow = true)
    (htarget : target ≠ "")
    (h : Walks d follow links (if Path.isAbsolute target then [] else dir)
      (Path.steps target ++ rest) loc) :
    Walks d follow (links + 1) dir (name :: rest) loc

variable {d d' : Disk} {follow : Bool} {links links' : Nat} {dir loc loc' : Loc}
  {steps rest : List String}

theorem walk_nil : d.walk follow links dir [] = .ok dir := by
  unfold walk
  rfl

theorem walk_here : d.walk follow links dir ("." :: rest) = d.walk follow links dir rest := by
  conv => lhs; unfold walk
  conv => rhs; unfold walk
  simp [leg]

theorem walk_up : d.walk follow links dir (".." :: rest) = d.walk follow links dir.tail rest := by
  conv => lhs; unfold walk
  conv => rhs; unfold walk
  simp [leg]

/-- What a walk does at a name. -/
theorem walk_name {name : String} (hname : IsName name) : d.walk follow links dir (name :: rest) =
    if name.utf8ByteSize > maxName then .error .nameTooLong
    else match d.get? (name :: dir) with
      | none => if rest.isEmpty then .ok (name :: dir) else .error .notFound
      | some (.directory _) => d.walk follow links (name :: dir) rest
      | some (.file ..) => if rest.isEmpty then .ok (name :: dir) else .error .notDirectory
      | some (.link target) =>
        if rest.isEmpty && !follow then .ok (name :: dir)
        else match links with
          | 0 => .error .tooManyLinks
          | links + 1 =>
            if target = "" then .error .notFound
            else d.walk follow links (if Path.isAbsolute target then [] else dir)
              (Path.steps target ++ rest) := by
  conv => lhs; unfold walk
  rw [leg, if_neg hname.1, if_neg hname.2]
  by_cases hlong : name.utf8ByteSize > maxName
  · simp only [if_pos hlong]
  · simp only [if_neg hlong]
    rcases hentry : d.get? (name :: dir) with _ | _ | _ | target
    · cases rest <;> rfl
    · cases rest <;> rfl
    · simp only
      conv => rhs; unfold walk
    · cases rest.isEmpty && !follow <;> cases links <;> rfl

/-- A walk goes down into a directory. -/
theorem walk_down {name : String} {mode : Nat} (hname : IsName name) (hshort : name.utf8ByteSize ≤ maxName)
    (hdir : d.get? (name :: dir) = some (.directory mode)) :
    d.walk follow links dir (name :: rest) = d.walk follow links (name :: dir) rest := by
  rw [walk_name hname, if_neg (Nat.not_lt.mpr hshort)]
  simp only [hdir]

/-- A walk that does not stay at a link goes on where the link leads, if it may follow one more. -/
theorem walk_link {name target : String} (hname : IsName name) (hshort : name.utf8ByteSize ≤ maxName)
    (hlink : d.get? (name :: dir) = some (.link target)) (hon : rest = [] → follow = true) :
    d.walk follow links dir (name :: rest) = match links with
      | 0 => .error .tooManyLinks
      | links + 1 =>
        if target = "" then .error .notFound
        else d.walk follow links (if Path.isAbsolute target then [] else dir)
          (Path.steps target ++ rest) := by
  have hgo : (rest.isEmpty && !follow) = false := by
    cases rest with
    | nil => simp [hon rfl]
    | cons => rfl
  rw [walk_name hname, if_neg (Nat.not_lt.mpr hshort)]
  simp only [hlink, hgo, Bool.false_eq_true, if_false]

/-- No walk goes on behind a file. -/
theorem walk_file {name : String} {mode : Nat} {bytes : ByteArray} (hname : IsName name)
    (hshort : name.utf8ByteSize ≤ maxName) (hfile : d.get? (name :: dir) = some (.file mode bytes)) :
    d.walk follow links dir (name :: rest) =
      if rest.isEmpty then .ok (name :: dir) else .error .notDirectory := by
  rw [walk_name hname, if_neg (Nat.not_lt.mpr hshort)]
  simp only [hfile]

theorem Walks.walk_eq (h : Walks d follow links dir steps loc) :
    d.walk follow links dir steps = .ok loc := by
  induction h with
  | done => exact walk_nil
  | here _ ih => rw [walk_here, ih]
  | up _ ih => rw [walk_up, ih]
  | @last links dir name hname hshort hdir hlink =>
    rw [walk_name hname, if_neg (Nat.not_lt.mpr hshort)]
    rcases hentry : d.get? (name :: dir) with _ | _ | _ | target
    · rfl
    · rfl
    · exact absurd hentry (hdir _)
    · simp [hlink target hentry]
  | down hname hshort hdir _ ih => rw [walk_down hname hshort hdir, ih]
  | link hname hshort hlink hon htarget _ ih =>
    rw [walk_link hname hshort hlink hon]
    simp only [if_neg htarget, ih]

theorem of_ite_ok {name : String} {e : OsError}
    (h : (if rest.isEmpty then .ok (name :: dir) else .error e : Except OsError Loc) = .ok loc) :
    rest = [] ∧ name :: dir = loc := by
  cases rest with
  | nil => exact ⟨rfl, Except.ok.inj h⟩
  | cons => cases h

theorem walks_of_walk_eq (h : d.walk follow links dir steps = .ok loc) :
    Walks d follow links dir steps loc := by
  -- Only a link makes the steps longer, and it uses up one of the links that may be followed.
  induction links using Nat.strongRecOn generalizing dir steps with
  | ind links ihlinks =>
    induction steps generalizing dir with
    | nil =>
      cases walk_nil.symm.trans h
      exact .done
    | cons name rest ih =>
      by_cases hhere : name = "."
      · subst hhere
        exact .here (ih (walk_here.symm.trans h))
      by_cases hup : name = ".."
      · subst hup
        exact .up (ih (walk_up.symm.trans h))
      have hname : IsName name := ⟨hhere, hup⟩
      rw [walk_name hname] at h
      split at h
      next => cases h
      next hlong =>
        have hshort := Nat.not_lt.mp hlong
        split at h
        next hentry =>
          obtain ⟨rfl, rfl⟩ := of_ite_ok h
          exact .last hname hshort (by simp [hentry]) (by simp [hentry])
        next hentry => exact .down hname hshort hentry (ih h)
        next hentry =>
          obtain ⟨rfl, rfl⟩ := of_ite_ok h
          exact .last hname hshort (by simp [hentry]) (by simp [hentry])
        next target hentry =>
          split at h
          next hend =>
            cases h
            simp only [Bool.and_eq_true, List.isEmpty_iff, Bool.not_eq_true'] at hend
            obtain ⟨rfl, hfollow⟩ := hend
            exact .last hname hshort (by simp [hentry]) fun _ _ => hfollow
          next hgo =>
            cases links with
            | zero => cases h
            | succ links =>
              simp only at h
              split at h
              next => cases h
              next htarget =>
                refine .link hname hshort hentry ?_ htarget (ihlinks links (Nat.lt_succ_self _) h)
                rintro rfl
                simpa using hgo

theorem walk_eq_ok_iff :
    d.walk follow links dir steps = .ok loc ↔ Walks d follow links dir steps loc :=
  ⟨walks_of_walk_eq, Walks.walk_eq⟩

namespace Walks

/-! ## Directories that stand -/

theorem get?_of_stands (h : d.stands loc) : ∃ mode, d.get? loc = some (.directory mode) := by
  cases loc with
  | nil => exact ⟨_, d.get?_root⟩
  | cons name dir =>
    simp only [Disk.stands, Bool.and_eq_true] at h
    rcases hentry : d.get? (name :: dir) with _ | _ | mode | _
    · simp [hentry] at h
    · simp [hentry, Entry.isDirectory] at h
    · exact ⟨mode, rfl⟩
    · simp [hentry, Entry.isDirectory] at h

theorem stands_tail (h : d.stands dir) : d.stands dir.tail := by
  cases dir with
  | nil => exact h
  | cons name dir =>
    simp only [Disk.stands, Bool.and_eq_true] at h
    exact h.2

theorem stands_cons {name : String} {mode : Nat} (h : d.stands dir)
    (hdir : d.get? (name :: dir) = some (.directory mode)) : d.stands (name :: dir) := by
  simp [Disk.stands, hdir, h, Entry.isDirectory]

theorem stands_start {target : String} (h : d.stands dir) :
    d.stands (if Path.isAbsolute target then [] else dir) := by
  split
  · rfl
  · exact h

/-- A walk that does not end with a name ends at a directory. -/
theorem stands (h : Walks d follow links dir steps loc) (hdir : d.stands dir) :
    d.stands loc ∨ EndsInName steps := by
  induction h with
  | done => exact .inl hdir
  | here _ ih => exact (ih hdir).imp_right (.append [_])
  | up _ ih => exact (ih (stands_tail hdir)).imp_right (.append [_])
  | last hname => exact .inr ⟨_, rfl, hname⟩
  | down _ _ hentry _ ih => exact (ih (stands_cons hdir hentry)).imp_right (.append [_])
  | @link _ _ _ name target rest hname _ _ _ _ _ ih =>
    rcases rest with _ | ⟨step, rest⟩
    · exact .inr ⟨name, rfl, hname⟩
    · refine (ih (stands_start hdir)).imp_right ?_
      rintro ⟨last, hlast, hlastName⟩
      exact ⟨last, by simpa [List.getLast?_append] using hlast, hlastName⟩

/-- A walk that goes on was at a directory before. -/
theorem split {first second : List String} (h : Walks d follow links dir (first ++ second) loc)
    (hsecond : second ≠ []) (hdir : d.stands dir) :
    ∃ loc', Walks d true links dir first loc' ∧ d.stands loc' := by
  -- The first part may be used up at any step of the walk, and that is the place.
  generalize hsteps : first ++ second = steps at h
  induction h generalizing first with
  | done => exact absurd (List.append_eq_nil_iff.mp hsteps).2 hsecond
  | @here _ dir _ rest _ ih =>
    cases first with
    | nil => exact ⟨dir, .done, hdir⟩
    | cons step first =>
      obtain ⟨rfl, hrest⟩ := List.cons.inj hsteps
      obtain ⟨loc', hwalks, hstands⟩ := ih hdir hrest
      exact ⟨loc', .here hwalks, hstands⟩
  | @up _ dir _ rest _ ih =>
    cases first with
    | nil => exact ⟨dir, .done, hdir⟩
    | cons step first =>
      obtain ⟨rfl, hrest⟩ := List.cons.inj hsteps
      obtain ⟨loc', hwalks, hstands⟩ := ih (stands_tail hdir) hrest
      exact ⟨loc', .up hwalks, hstands⟩
  | @last _ dir =>
    cases first with
    | nil => exact ⟨dir, .done, hdir⟩
    | cons step first => exact absurd (List.append_eq_nil_iff.mp (List.cons.inj hsteps).2).2 hsecond
  | @down _ dir _ _ rest _ hname hshort hentry _ ih =>
    cases first with
    | nil => exact ⟨dir, .done, hdir⟩
    | cons step first =>
      obtain ⟨rfl, hrest⟩ := List.cons.inj hsteps
      obtain ⟨loc', hwalks, hstands⟩ := ih (stands_cons hdir hentry) hrest
      exact ⟨loc', .down hname hshort hentry hwalks, hstands⟩
  | @link _ dir _ _ target rest hname hshort hentry _ htarget _ ih =>
    cases first with
    | nil => exact ⟨dir, .done, hdir⟩
    | cons step first =>
      obtain ⟨rfl, rfl⟩ := List.cons.inj hsteps
      obtain ⟨loc', hwalks, hstands⟩ := ih (stands_start hdir) (List.append_assoc ..)
      exact ⟨loc', .link hname hshort hentry (fun _ => rfl) htarget hwalks, hstands⟩

/-! ## The last step -/

theorem getLast?_of_ne {step name : String} (h : (step :: rest).getLast? = some name) (hne : step ≠ name) :
    rest.getLast? = some name := by
  cases rest with
  | nil => exact absurd (Option.some.inj h) hne
  | cons => exact List.getLast?_cons_cons ▸ h

/-- A walk to a name comes to a place from which only that step is left. It comes there whether it is to
follow a link at its end or not. -/
theorem exists_last {name : String} (h : Walks d follow links dir steps loc)
    (hlast : steps.getLast? = some name) (hname : IsName name) :
    ∃ links' dir', Walks d follow links' dir' [name] loc ∧
      ∀ follow', d.walk follow' links dir steps = d.walk follow' links' dir' [name] := by
  induction h with
  | done => cases hlast
  | here _ ih =>
    obtain ⟨links', dir', hend, hsame⟩ := ih (getLast?_of_ne hlast hname.1.symm)
    exact ⟨links', dir', hend, fun follow' => walk_here.trans (hsame follow')⟩
  | up _ ih =>
    obtain ⟨links', dir', hend, hsame⟩ := ih (getLast?_of_ne hlast hname.2.symm)
    exact ⟨links', dir', hend, fun follow' => walk_up.trans (hsame follow')⟩
  | last hname hshort hdir hlink =>
    obtain rfl := Option.some.inj hlast
    exact ⟨_, _, .last hname hshort hdir hlink, fun _ => rfl⟩
  | @down _ _ _ _ rest _ hname hshort hentry h ih =>
    cases rest with
    | nil =>
      obtain rfl := Option.some.inj hlast
      exact ⟨_, _, .down hname hshort hentry h, fun _ => rfl⟩
    | cons step rest =>
      obtain ⟨links', dir', hend, hsame⟩ := ih (List.getLast?_cons_cons ▸ hlast)
      exact ⟨links', dir', hend, fun follow' => (walk_down hname hshort hentry).trans (hsame follow')⟩
  | @link _ _ _ _ target rest hname hshort hentry hon htarget h ih =>
    cases rest with
    | nil =>
      obtain rfl := Option.some.inj hlast
      exact ⟨_, _, .link hname hshort hentry hon htarget h, fun _ => rfl⟩
    | cons step rest =>
      have hlast' : (Path.steps target ++ step :: rest).getLast? = some name := by
        rw [List.getLast?_append, ← List.getLast?_cons_cons, hlast]
        rfl
      obtain ⟨links', dir', hend, hsame⟩ := ih hlast'
      refine ⟨links', dir', hend, fun follow' => ?_⟩
      rw [walk_link hname hshort hentry (by rintro ⟨⟩)]
      simp only [if_neg htarget]
      exact hsame follow'

/-- A step to a name ends there, unless a link is followed. -/
theorem eq_cons {name : String} (h : Walks d false links dir [name] loc) (hname : IsName name) :
    loc = name :: dir := by
  cases h with
  | here => exact absurd rfl hname.1
  | up => exact absurd rfl hname.2
  | last => rfl
  | down _ _ _ h =>
    cases h
    rfl
  | link _ _ _ hon => exact absurd (hon rfl) Bool.false_ne_true

/-- The last step of a walk is not too long for a name. -/
theorem short {name : String} (h : Walks d follow links dir steps loc)
    (hlast : steps.getLast? = some name) (hname : IsName name) : name.utf8ByteSize ≤ maxName := by
  obtain ⟨links', dir', hend, -⟩ := h.exists_last hlast hname
  cases hend with
  | here => exact absurd rfl hname.1
  | up => exact absurd rfl hname.2
  | last _ hshort | down _ hshort | link _ hshort => exact hshort

/-! ## Walks that end at a link, and walks that follow it -/

/-- Where a walk that follows links ends, the walk that stays at a last link ends too, or at that
link. -/
theorem unfollowed (h : Walks d true links dir steps loc) : ∃ loc', Walks d false links dir steps loc' ∧
    (loc' = loc ∨ ∃ target, d.get? loc' = some (.link target)) := by
  induction h with
  | done => exact ⟨_, .done, .inl rfl⟩
  | here _ ih =>
    obtain ⟨loc', hwalks, hloc⟩ := ih
    exact ⟨loc', .here hwalks, hloc⟩
  | up _ ih =>
    obtain ⟨loc', hwalks, hloc⟩ := ih
    exact ⟨loc', .up hwalks, hloc⟩
  | last hname hshort hdir _ => exact ⟨_, .last hname hshort hdir fun _ _ => rfl, .inl rfl⟩
  | down hname hshort hdir _ ih =>
    obtain ⟨loc', hwalks, hloc⟩ := ih
    exact ⟨loc', .down hname hshort hdir hwalks, hloc⟩
  | @link _ dir _ name target rest hname hshort hlink _ htarget _ ih =>
    rcases rest with _ | ⟨step, rest⟩
    · exact ⟨name :: dir, .last hname hshort (by simp [hlink]) fun _ _ => rfl, .inr ⟨target, hlink⟩⟩
    · obtain ⟨loc', hwalks, hloc⟩ := ih
      exact ⟨loc', .link hname hshort hlink (by rintro ⟨⟩) htarget hwalks, hloc⟩

/-- With more or fewer links to follow, a walk ends where it did, or is given up. -/
theorem walk_cases (h : Walks d follow links dir steps loc) (links' : Nat) :
    d.walk follow links' dir steps = .ok loc ∨
      d.walk follow links' dir steps = .error .tooManyLinks := by
  induction h generalizing links' with
  | done => exact .inl walk_nil
  | here _ ih =>
    rw [walk_here]
    exact ih links'
  | up _ ih =>
    rw [walk_up]
    exact ih links'
  | last hname hshort hdir hlink => exact .inl (Walks.last hname hshort hdir hlink).walk_eq
  | down hname hshort hentry _ ih =>
    rw [walk_down hname hshort hentry]
    exact ih links'
  | link hname hshort hentry hon htarget _ ih =>
    rw [walk_link hname hshort hentry hon]
    cases links' with
    | zero => exact .inr rfl
    | succ links' =>
      simp only [if_neg htarget]
      exact ih links'

end Walks

/-! ## Walks on a changed disk -/

def IsDirectory (d : Disk) (loc : Loc) : Prop := ∃ mode, d.get? loc = some (.directory mode)

/-- The directories and links of `d` are on `d'` as well. -/
structure Ways (d d' : Disk) : Prop where
  directory {loc : Loc} (h : d.IsDirectory loc) : d'.IsDirectory loc
  link {loc : Loc} {target : String} (h : d.get? loc = some (.link target)) :
    d'.get? loc = some (.link target)

namespace Ways

theorem refl (d : Disk) : d.Ways d := ⟨id, id⟩

/-- Where there is more, the ways are still there. -/
theorem of_below (h : d.Below d') : d.Ways d' := by
  constructor
  · rintro loc ⟨mode, hmode⟩
    exact ⟨mode, h loc _ hmode⟩
  · intro loc target htarget
    exact h loc _ htarget

theorem stands (hways : d.Ways d') (h : d.stands loc) : d'.stands loc := by
  induction loc with
  | nil => rfl
  | cons name dir ih =>
    obtain ⟨mode, hentry⟩ := hways.directory (Walks.get?_of_stands h)
    exact Walks.stands_cons (ih (Walks.stands_tail h)) hentry

/-- A walk can be made there if its last step can, where that is neither a directory nor a link to be
followed. -/
theorem walks_of_last {follow' : Bool} (hways : d.Ways d') (hfollow : follow = true → follow' = true)
    (h : Walks d follow links dir steps loc)
    (hlast : ∀ {links dir name}, IsName name → name.utf8ByteSize ≤ maxName → loc = name :: dir →
      (∀ mode, d.get? loc ≠ some (.directory mode)) →
      (∀ target, d.get? loc = some (.link target) → follow = false) →
      Walks d' follow' links dir [name] loc) :
    Walks d' follow' links dir steps loc := by
  induction h with
  | done => exact .done
  | here _ ih => exact .here (ih hlast)
  | up _ ih => exact .up (ih hlast)
  | last hname hshort hdir hlink => exact hlast hname hshort rfl hdir hlink
  | down hname hshort hentry _ ih =>
    obtain ⟨mode, hentry'⟩ := hways.directory ⟨_, hentry⟩
    exact .down hname hshort hentry' (ih hlast)
  | link hname hshort hentry hon htarget _ ih =>
    exact .link hname hshort (hways.link hentry) (fun hend => hfollow (hon hend)) htarget (ih hlast)

/-- A way to a directory is there as well. -/
theorem walks (hways : d.Ways d') (h : Walks d true links dir steps loc) (hloc : d.IsDirectory loc) :
    Walks d' true links dir steps loc := by
  apply hways.walks_of_last id h
  intro _ _ _ _ _ _ hdir _
  obtain ⟨mode, hmode⟩ := hloc
  exact absurd hmode (hdir mode)

/-- So is a way that ends at something that stayed where it was. -/
theorem walks_kept {e : Entry} (hways : d.Ways d') (h : Walks d follow links dir steps loc)
    (he : d.get? loc = some e) (he' : d'.get? loc = some e) : Walks d' follow links dir steps loc := by
  apply hways.walks_of_last id h
  rintro _ _ _ hname hshort rfl hdir hlink
  rw [he, ← he'] at hdir hlink
  exact .last hname hshort hdir hlink

end Ways

/-- There is a link at the place, and it leads to a directory. -/
def LeadsOn (d : Disk) (loc : Loc) : Prop :=
  ∃ target links behind, d.get? loc = some (.link target) ∧ target ≠ "" ∧ d.stands behind ∧
    Walks d true links (if Path.isAbsolute target then [] else loc.tail) (Path.steps target) behind

namespace Walks

/-- The walk that stays at a last link and the walk that follows it end at the same place if there is no
link. -/
theorem followed (h : Walks d false links dir steps loc)
    (hlink : ∀ target, d.get? loc ≠ some (.link target)) : Walks d true links dir steps loc := by
  apply (Ways.refl d).walks_of_last (fun _ => rfl) h
  rintro _ _ _ hname hshort rfl hdir -
  exact .last hname hshort hdir fun target htarget => absurd htarget (hlink target)

/-- A place that is no directory is on nobody's way. -/
theorem stands_of_elsewhere {place : Loc} (h : d.stands loc)
    (hplace : ∀ mode, d.get? place ≠ some (.directory mode))
    (hother : ∀ {loc}, loc ≠ place → d'.get? loc = d.get? loc) : d'.stands loc := by
  induction loc with
  | nil => rfl
  | cons name dir ih =>
    obtain ⟨mode, hmode⟩ := get?_of_stands h
    have hne : name :: dir ≠ place := by
      rintro rfl
      exact hplace mode hmode
    exact stands_cons (ih (stands_tail h)) ((hother hne).trans hmode)

/-- After a file was put at the end of a walk, the same steps lead to it, unless it replaced a link that
they meet before their end, and that led them on to a directory. -/
theorem walk_put {mode : Nat} {bytes : ByteArray} (h : Walks d false links dir steps loc)
    (hdir : d.stands dir) (hloc : ∀ mode, d.get? loc ≠ some (.directory mode)) (hlast : EndsInName steps) :
    (d.put loc (.file mode bytes)).walk true links dir steps = .ok loc ∨
      d.LeadsOn loc ∧ (d.put loc (.file mode bytes)).walk true links dir steps = .error .notDirectory := by
  induction h with
  | done =>
    obtain ⟨name, hname, -⟩ := hlast
    cases hname
  | here _ ih =>
    rw [walk_here]
    exact ih hdir hloc (hlast.tail_of_not fun h => h.1 rfl)
  | up _ ih =>
    rw [walk_up]
    exact ih (stands_tail hdir) hloc (hlast.tail_of_not fun h => h.2 rfl)
  | last hname hshort =>
    rw [walk_file hname hshort (get?_put (List.cons_ne_nil _ _) _)]
    exact .inl rfl
  | @down _ dir loc name rest _ hname hshort hentry h ih =>
    -- No directory was replaced, so the walk goes down as it did.
    have hne : name :: dir ≠ loc := fun heq => hloc _ (heq ▸ hentry)
    have hrest : rest ≠ [] := by
      rintro rfl
      cases h
      exact hne rfl
    rw [walk_down hname hshort ((get?_put_of_ne hne _).trans hentry)]
    exact ih (stands_cons hdir hentry) hloc (hlast.tail hrest)
  | @link _ dir loc name target rest hname hshort hentry hon htarget h ih =>
    have hrest : rest ≠ [] := fun h => Bool.false_ne_true (hon h)
    by_cases heq : name :: dir = loc
    · -- The link was replaced by the file, and the walk wants to go on.
      subst heq
      obtain ⟨behind, hbehind, hstands⟩ := h.split hrest (stands_start hdir)
      rw [walk_file hname hshort (get?_put (List.cons_ne_nil _ _) _), if_neg (by simpa using hrest)]
      exact .inr ⟨⟨target, _, behind, hentry, htarget, hstands, hbehind⟩, rfl⟩
    · rw [walk_link hname hshort ((get?_put_of_ne heq _).trans hentry) fun _ => rfl]
      simp only [if_neg htarget]
      exact ih (stands_start hdir) hloc ((hlast.tail hrest).append _)

/-- However many links may be followed, the steps lead to the new file or nowhere. -/
theorem put {mode : Nat} {bytes : ByteArray} (h : Walks d false links dir steps loc)
    (hdir : d.stands dir) (hloc : ∀ mode, d.get? loc ≠ some (.directory mode)) (hlast : EndsInName steps)
    (h' : Walks (d.put loc (.file mode bytes)) true links' dir steps loc') : loc' = loc := by
  rcases h.walk_put hdir hloc hlast with hput | ⟨-, hput⟩
  · rcases h'.walk_cases links with hwalk | hwalk
    · exact Except.ok.inj (hwalk.symm.trans hput)
    · cases hwalk.symm.trans hput
  · rcases h'.walk_cases links with hwalk | hwalk <;> cases hwalk.symm.trans hput

end Walks

end PoolKeeper.Disk
