import Keysmith.Proofs.DirectoryRenewal
import Keysmith.Proofs.OutputDirEmpty
import Keysmith.Proofs.PathLoss

/-!
# When a reset of a directory succeeds

A reset of a directory that is there, away from the working directory, empties it first and then
removes it by the path that it was given.  That path must still do for a removal when the
directory is empty, and in the end it must lead to a directory again:

* `rmdirPlace_clear_cases`  what the removal comes to once the directory is empty
* `reset_succeeds_iff`  by which paths a reset succeeds, and that it empties the directory if it
  does not
* `reset_fails_after_emptying`  a path that ends in `.` is one by which it does not
-/

namespace Keysmith

namespace Disk

variable {d : Disk} {p : Path} {q r : Place}

theorem Above.unique (hq : d.Above p q) (hr : d.Above p r) : q = r := by
  obtain ⟨-, n, -, hq⟩ := hq
  obtain ⟨-, m, -, hr⟩ := hr
  exact hq.unique hr

/-! ## Removing by a path what it led to -/

/-- A path is barred from removals: there is a directory above its last step, but that step
    stays, or it is a link with a slash after it. -/
def Bars (d : Disk) (p : Path) : Prop :=
  ∃ r, d.Above p r ∧ (p.steps.getLast? = some "." ∨
    p.slash = true ∧ ∃ s target, p.steps.getLast? = some s ∧ IsName s ∧
      d.root.kindAt (r ++ [s]) = some (.link target))

/-- How the last step of a path leads to a directory from the one above it. -/
theorem PathLeads.last_step (hq : d.PathLeads .keep p q) (hdir : d.root.kindAt q = some .dir)
    (hr : d.Above p r) {s : String} (hlast : p.steps.getLast? = some s) :
    s = "." ∨ s = ".." ∧ q = r.dropLast ∨ IsName s ∧ (q = r ++ [s] ∨
      p.slash = true ∧ ∃ target, d.root.kindAt (r ++ [s]) = some (.link target)) := by
  obtain ⟨n, -, hlead⟩ := hq
  obtain ⟨-, m, -, hfirst⟩ := hr
  rw [walk_eq, steps_eq_of_getLast? hlast, List.append_assoc] at hlead
  obtain ⟨n₁, n₂, mid, -, hinit, hrest⟩ := hlead.split (List.cons_ne_nil s _)
  obtain rfl := hinit.unique hfirst
  -- A slash at the end stays where the last step leads
  have hslash {m : Nat} {x : Place}
      (h : Leads d.root.kindAt .keep m x (if p.slash then ["."] else []) q) : q = x := by
    split at h
    · cases h.of_stay.2
      rfl
    · cases h
      rfl
  rcases hrest.isStep s (List.mem_cons_self) with rfl | rfl | hs
  · exact .inl rfl
  · exact .inr (.inl ⟨rfl, hslash hrest.of_up.2⟩)
  · refine .inr (.inr ⟨hs, ?_⟩)
    generalize hrest' : (if p.slash then ["."] else [] : List String) = rest at hrest hslash
    cases hrest with
    | stay => exact absurd rfl hs.ne_dot
    | up => exact absurd rfl hs.ne_dotdot
    | enter _ _ _ hend => exact .inl (hslash hend)
    | kept _ hk => cases hk.symm.trans hdir
    | link _ hk hnil =>
      refine .inr ⟨?_, _, hk⟩
      by_contra hno
      rw [if_neg hno] at hrest'
      cases hnil hrest'.symm

/-- Without steps, a path leads to where it starts. -/
theorem PathLeads.start_of_nil {last : LastLink} (hq : d.PathLeads last p q)
    (hnil : p.steps = []) : q = startPlace p d.cwd.place := by
  obtain ⟨n, -, hlead⟩ := hq
  rw [walk_eq, hnil, List.nil_append] at hlead
  split at hlead
  · cases hlead.of_stay.2
    rfl
  · cases hlead
    rfl

/-- What the removal of a directory comes to once it is empty: the path bars it, or the directory
    is removed, or the path has broken off. -/
theorem rmdirPlace_clear_cases (h : d.Standing) (hq : d.PathLeads .keep p q)
    (hdir : d.root.kindAt q = some .dir) (hcwd : ¬ q <+: d.cwd.place) :
    ((d.clear q).Bars p ∧ ∃ e, e ≠ .noEntry ∧ (d.clear q).rmdirPlace p = .error e) ∨
    (¬ (d.clear q).Bars p ∧
      ((d.clear q).rmdirPlace p = .ok q ∨ (d.clear q).rmdirPlace p = .error .noEntry)) := by
  have hw := within_clear h hcwd hdir
  have hd₁ := (clear_standing h hcwd hdir).2
  have hself : (d.clear q).root.at? q = some (.dir []) := Node.at?_clear_self hdir
  have hne : q ≠ [] := fun hnil => hcwd (hnil ▸ List.nil_prefix)
  obtain ⟨r, hr⟩ := hq.above h
  rcases hr.within hw hd₁ with hr₁ | hloc
  · have hbars (hstay : p.steps.getLast? ≠ some ".") {s : String}
        (hlast : p.steps.getLast? = some s)
        (hnot : p.slash = true →
          ∀ target, (d.clear q).root.kindAt (r ++ [s]) ≠ some (.link target)) :
        ¬ (d.clear q).Bars p := by
      rintro ⟨r', hr', hdot | ⟨hslash, s', target, hlast', -, hk⟩⟩
      · exact hstay hdot
      · obtain rfl := hr₁.unique hr'
        obtain rfl := Option.some.inj (hlast.symm.trans hlast')
        exact hnot hslash target hk
    cases hlast : p.steps.getLast? with
    | none =>
      have hstart := hq.start_of_nil (List.getLast?_eq_none_iff.mp hlast)
      exact absurd (hstart ▸ startPlace_le p d.cwd.place) hcwd
    | some s =>
      rcases hq.last_step hdir hr hlast with rfl | ⟨rfl, rfl⟩ | ⟨hs, hto⟩
      · -- A last step that stays
        have hstep : lastStep p = .stay := by rw [lastStep, hlast]; rfl
        have hloc := (locatePath_eq_ok_iff hd₁).mpr ⟨hstep.symm, r, rfl, hr₁⟩
        exact .inl ⟨⟨r, hr₁, .inl hlast⟩, .invalidArgument, by simp, by rw [rmdirPlace, hloc]⟩
      · -- A last step up comes from below the directory, where nothing is left
        have habove : r.dropLast ≠ r := by
          intro heq
          have hlen := congrArg List.length heq
          have hpos := List.length_pos_iff.mpr hne
          rw [List.length_dropLast] at hlen hpos
          omega
        have hnone : (d.clear r.dropLast).root.kindAt r = none := by
          rw [clear, Node.kindAt_clear hdir, if_pos ⟨r.dropLast_prefix, habove⟩]
        cases hnone.symm.trans hr₁.1
      · have hstay : p.steps.getLast? ≠ some "." :=
          fun hdot => hs.ne_dot (Option.some.inj (hlast.symm.trans hdot))
        have hrm := rmdirPlace_of_name hd₁ hr₁ hlast hs
        rcases hto with rfl | ⟨hslash, target, hk⟩
        · -- The name of the directory itself
          rw [hself] at hrm
          refine .inr ⟨hbars hstay hlast fun _ target hk => ?_, .inl hrm⟩
          rw [Node.kindAt, hself] at hk
          cases hk
        · by_cases hthere : (d.clear q).root.kindAt (r ++ [s]) = none
          · -- The link has been in the directory
            rw [Node.kindAt_eq_none_iff.mp hthere] at hrm
            refine .inr ⟨hbars hstay hlast fun _ target hk => ?_, .inr hrm⟩
            cases hthere.symm.trans hk
          · have hk₁ := (hw.kindAt_eq hthere).trans hk
            rw [Node.kindAt_eq_link_iff.mp hk₁] at hrm
            exact .inl ⟨⟨r, hr₁, .inr ⟨hslash, s, target, hlast, hs, hk₁⟩⟩, .notDirectory, by simp,
              hrm⟩
  · -- The way to the last step has broken off
    refine .inr ⟨?_, .inr (by rw [rmdirPlace, hloc])⟩
    rintro ⟨r, hr, -⟩
    cases hloc.symm.trans ((locatePath_eq_ok_iff hd₁).mpr ⟨rfl, r, rfl, hr⟩)

/-- A path that names a link ends neither in a step that stays nor in a slash. -/
theorem PathLeads.ends_of_link {x : Place} {target : String} (hx : d.PathLeads .keep p x)
    (hlink : d.root.kindAt x = some (.link target)) :
    p.steps.getLast? ≠ some "." ∧ p.slash = false := by
  obtain ⟨n, -, hlead⟩ := hx
  have hstay {l : List String} (hwalk : p.walk = l ++ ["."]) : False := by
    rw [hwalk] at hlead
    obtain ⟨_, _, mid, -, -, hend⟩ := hlead.split (List.cons_ne_nil _ _)
    obtain ⟨hmid, hdone⟩ := hend.of_stay
    cases hdone
    cases hmid.symm.trans hlink
  have hslash : p.slash = false := by
    by_contra hslash
    rw [Bool.not_eq_false] at hslash
    exact hstay (by rw [walk_eq, hslash, if_pos rfl])
  refine ⟨fun hdot => ?_, hslash⟩
  exact hstay (by rw [walk_eq, hslash, if_neg (by simp), List.append_nil,
    steps_eq_of_getLast? hdot])

/-- What the removal of a directory by a path that leads to it comes to. -/
inductive Emptying (d : Disk) (p : Path) (q : Place) : Except IoError Unit × Disk → Prop
  /-- The directory is emptied, and the path bars more. -/
  | barred (e : OsError) :
      (d.clear q).Bars p → e ≠ .noEntry → Emptying d p q (.error (.os e), d.clear q)
  /-- The directory, or the link to it, is removed, or the path has broken off. -/
  | gone {d' : Disk} :
      ¬ (d.clear q).Bars p → Within d' d → d'.Standing →
      (p.steps.getLast? = some "." → d' = d.clear q) →
      Emptying d p q (.ok (), d')

theorem removeAll_emptying (h : d.Standing) {dir : String} (hpath : pathOf dir = .ok p)
    (hq : d.PathLeads .follow p q) (hdir : d.root.kindAt q = some .dir)
    (hcwd : ¬ q <+: d.cwd.place) : Emptying d p q (removeAll dir d) := by
  obtain ⟨n, hn, hlead⟩ := hq
  obtain ⟨m, hm, hkeep | ⟨x, target, hkeep, hx⟩⟩ := hlead.keep_of_follow
  · have hq : d.PathLeads .keep p q := ⟨m, hm.trans hn, hkeep⟩
    obtain ⟨es, hat⟩ := Node.kindAt_eq_dir_iff.mp hdir
    obtain ⟨hcwd₁, hd₁⟩ := clear_standing h hcwd hdir
    have hw := within_clear h hcwd hdir
    have hrmdir : (d.clear q).rmdir dir =
        (((d.clear q).rmdirPlace p).map (d.clear q).remove).mapError .os := by
      simp only [rmdir, hpath, bind, Except.bind, rmdirPath]
    rw [removeAll, find_of_pathLeads h hpath hq]
    simp only [node?_ofPlace, hat, ofPlace_place, hrmdir]
    rcases rmdirPlace_clear_cases h hq hdir hcwd with ⟨hbars, e, he, hrm⟩ | ⟨hbars, hrm | hrm⟩
    · rw [hrm]
      cases e <;> first | exact absurd rfl he | exact .barred _ hbars he
    · rw [hrm]
      have hcwd' : ¬ q <+: (d.clear q).cwd.place := by rwa [hcwd₁]
      refine .gone hbars ((within_remove hd₁ hcwd').trans hw) (remove_standing hd₁ hcwd').2 ?_
      -- A last step that stays removes nothing
      intro hdot
      obtain ⟨_, s, -, hlast, hs, -⟩ := rmdirPlace_eq_ok hd₁ hrm
      exact absurd (Option.some.inj (hlast.symm.trans hdot)) hs.ne_dot
    · rw [hrm]
      exact .gone hbars hw hd₁ fun _ => rfl
  · have hx' : d.PathLeads .keep p x := ⟨m, hm.trans hn, hkeep⟩
    have hnot := not_le_cwd_of_link h hx
    obtain ⟨hdot, hslash⟩ := hx'.ends_of_link hx
    rw [removeAll, find_of_pathLeads h hpath hx']
    simp only [node?_ofPlace, Node.kindAt_eq_link_iff.mp hx, ofPlace_place]
    refine .gone ?_ (within_remove h hnot) (remove_standing h hnot).2 fun h => absurd h hdot
    rintro ⟨r, -, hstay | ⟨hslash', -⟩⟩
    · exact hdot hstay
    · cases hslash.symm.trans hslash'

/-! ## Making the directory again -/

/-- No way to a place fails because something is there already. -/
theorem follow_error_ne {d : Disk} {last : LastLink} {links : Nat} {here : Spot}
    {steps : List String} {e : OsError} (h : d.follow last links here steps = .error e) :
    e ≠ .alreadyExists := by
  fun_induction Disk.follow d last links here steps with
  | case5 links here step rest _ _ _ e' hent =>
    cases h
    rw [lookup?] at hent
    split at hent
    · cases hent
      simp
    · split at hent
      · cases hent
        simp
      · split at hent <;> cases hent
        simp
  | case3 _ _ _ _ ih => exact ih h
  | case4 _ _ _ _ _ ih => exact ih h
  | case10 _ _ _ _ _ _ _ _ _ _ _ ih => exact ih h
  | case11 _ _ _ _ _ _ _ _ _ _ ih => exact ih h
  | _ => cases h <;> simp

theorem locatePath_error_ne {e : OsError} (h : d.locatePath p = .error e) : e ≠ .alreadyExists := by
  rw [locatePath, locateFrom] at h
  split at h
  · rename_i hfollow
    cases h
    exact follow_error_ne hfollow
  · cases h
    simp
  · split at h <;> cases h
    simp

/-- By a path whose last step stays, no directory can be made: one must be there. -/
theorem ensureDirectory_of_stay (h : d.Standing) (hdot : p.steps.getLast? = some ".") :
    ((ensureDirectory p d).1 = .ok () ∨ (ensureDirectory p d).1 = .error .alreadyExists) ↔
      d.leadsToDirectory p = true := by
  cases hloc : d.locatePath p with
  | error e =>
    have hlead : d.leadsToDirectory p = false := by
      rw [Bool.eq_false_iff, Ne, leadsToDirectory_iff h]
      rintro ⟨q, hq, -⟩
      obtain ⟨r, hr⟩ := hq.above h
      cases hloc.symm.trans ((locatePath_eq_ok_iff h).mpr ⟨rfl, r, rfl, hr⟩)
    have he := locatePath_error_ne hloc
    simp [ensureDirectory, mkdirPath, hloc, hlead, he]
  | ok located =>
    obtain ⟨spot, l⟩ := located
    obtain ⟨rfl, r, rfl, hr⟩ := (locatePath_eq_ok_iff h).mp hloc
    have hstep : lastStep p = .stay := by rw [lastStep, hdot]; rfl
    have hlead : d.leadsToDirectory p = true := by
      obtain ⟨hdir, n, hn, hfirst⟩ := hr
      have hslash : Leads d.root.kindAt .follow 0 r (if p.slash then ["."] else []) r := by
        split
        · exact .stay hdir .done
        · exact .done
      refine (leadsToDirectory_iff h).mpr ⟨r, ⟨n, hn, ?_⟩, hdir⟩
      rw [walk_eq, steps_eq_of_getLast? hdot, List.append_assoc]
      exact hfirst.append (.stay hdir hslash) fun _ => rfl
    simp [ensureDirectory, mkdirPath, hloc, hstep, hlead]

/-- What is needed for a path whose last step stays: the directories above are made, and the path
    leads to a directory then; or a name is taken, which counts as no failure. -/
def Restores (d : Disk) (p : Path) : Prop :=
  (createComponents p.absolute p.components.reverse.tail d).1 = .error .alreadyExists ∨
    (d.withAbove p).leadsToDirectory p = true

/-- By a path whose last step stays, and whose way there has broken off, the directory is there
    again exactly if the path restores it. -/
theorem createAfter_of_stay {d d' : Disk} (hd' : d'.Standing) (hw : Within d' d)
    (hq : d.PathLeads .follow p q) (hdot : p.steps.getLast? = some ".")
    (hloc : d'.locatePath p = .error .noEntry) :
    let o := createAfter (createComponents p.absolute p.components.reverse.tail) p d'
    (o.1 = .ok () ∨ o.1 = .error .alreadyExists) ↔ d'.Restores p := by
  intro o
  have hfirst := ensureDirectory_of_missing hd' hloc
  have hwith : d'.withAbove p = (createComponents p.absolute p.components.reverse.tail d').2 := by
    rw [withAbove, hfirst]
  rw [Restores, hwith]
  dsimp only [o]
  rcases createComponents_within hd' hw hq with ⟨d₂, hmk, -⟩ | hexists
  · have hgrow := createComponents_grows p.absolute p.components.reverse.tail hd'
    rw [hmk] at hgrow
    rw [createAfter_of_ok hfirst hmk, hmk, ensureDirectory_of_stay (hgrow.standing hd') hdot]
    simp
  · rw [createAfter_of_error hfirst hexists]
    exact iff_of_true (.inr hexists) (.inl hexists)

end Disk

namespace OutputDir

open Disk

/-- What a reset answers once the removal has gone well. -/
theorem recreate_of_removed {dir : String} {d d₁ : Disk} (hrm : removeAll dir d = (.ok (), d₁)) :
    (((recreate dir d).1 = .ok () ↔ (createAll dir d₁).1 = .ok () ∨
      (createAll dir d₁).1 = .error (.os .alreadyExists)) ∧
    (∀ e, (recreate dir d).1 = .error e →
      ∃ cause, (createAll dir d₁).1 = .error cause ∧ e = .outputDir dir cause)) ∧
    (recreate dir d).2 = (createAll dir d₁).2 := by
  have hr := recreate_cases dir d
  generalize recreate dir d = r at hr
  cases hr with
  | stuck e he => simp [hrm] at he
  | failed e _ hmk he =>
    rw [hrm] at hmk ⊢
    refine ⟨⟨by simp [hmk, he], fun e' he' => ⟨e, hmk, ?_⟩⟩, rfl⟩
    cases he'
    rfl
  | done _ hmk =>
    rw [hrm] at hmk ⊢
    exact ⟨⟨by simp [hmk], nofun⟩, rfl⟩

/-- What a text says about making its directories is what its path says. -/
theorem createAll_of_path {dir : String} {p : Path} (hpath : pathOf dir = .ok p) (d : Disk) :
    let o := createAfter (createComponents p.absolute p.components.reverse.tail) p d
    ((createAll dir d).1 = .ok () ∨ (createAll dir d).1 = .error (.os .alreadyExists) ↔
      o.1 = .ok () ∨ o.1 = .error .alreadyExists) ∧
    ∀ cause, (createAll dir d).1 = .error cause → ∃ e, cause = .os e := by
  intro o
  have hall : (createAll dir d).1 = o.1.mapError .os := by simp only [createAll, hpath, o]
  rw [hall]
  cases o.1 with
  | ok u => simp [Except.mapError]
  | error e =>
    refine ⟨by simp [Except.mapError], fun cause hcause => ⟨e, ?_⟩⟩
    exact (Except.error.inj hcause).symm

/-- By a path to a directory away from the working directory, a reset succeeds exactly if the path
    does not bar the removal of the empty directory, and restores the directory if its last step
    stays.  So it succeeds by every path that ends neither in such a step nor in a slash.  If it
    fails, the cause is an operation on the disk, and the directory has been emptied. -/
theorem reset_succeeds_iff (d : Disk) (dir : String) {q : Place} (h : d.Standing)
    (hnames : ∀ s ∈ d.cwd.place, IsEntryName s) (hfind : d.find .follow dir = .ok (.ofPlace q))
    (hdir : d.root.kindAt q = some .dir) (hcwd : ¬ q <+: d.cwd.place) :
    let p := Path.ofString dir
    ((reset dir d).1 = .ok () ↔
      ¬ (d.clear q).Bars p ∧ (p.steps.getLast? = some "." → (d.clear q).Restores p)) ∧
    (p.steps.getLast? ≠ some "." → p.slash = false → (reset dir d).1 = .ok ()) ∧
    (∀ e, (reset dir d).1 = .error e →
      (∃ cause, e = .outputDir dir (.os cause)) ∧ Grows (d.clear q) (reset dir d).2) := by
  intro p
  have hpath : pathOf dir = .ok p := pathOf_of_find hfind
  obtain ⟨q', hq', hne, hnul, hq⟩ := names_of_find h hfind
  obtain rfl : q = q' := congrArg Spot.place hq'
  have href : ¬ (dir = "" ∨ ∃ r, d.Names .follow dir r ∧ r <+: d.cwd.place) := by
    rintro (hempty | ⟨r, hr, hle⟩)
    · exact hne hempty
    · exact hcwd (hr.2.2.unique hq ▸ hle)
  have hends : (d.clear q).Bars p → p.steps.getLast? = some "." ∨ p.slash = true := by
    rintro ⟨r, -, hdot | ⟨hslash, -⟩⟩
    · exact .inl hdot
    · exact .inr hslash
  rw [reset_of_standing h, if_neg (mt (names_of_refused h hnames) href)]
  have hempty := removeAll_emptying h hpath hq hdir hcwd
  generalize hrm : removeAll dir d = o at hempty
  cases hempty with
  | barred e hbars he =>
    rw [recreate_eq_error hrm (by simpa using he)]
    refine ⟨iff_of_false (by simp) fun hnot => hnot.1 hbars, fun hdot hslash => ?_,
      fun e' he' => ?_⟩
    · rcases hends hbars with hdot' | hslash'
      · exact absurd hdot' hdot
      · cases hslash.symm.trans hslash'
    · cases he'
      exact ⟨⟨e, rfl⟩, .refl _⟩
  | @gone d₁ hnot hw hd₁ hstay =>
    obtain ⟨⟨hok, herror⟩, hdisk⟩ := recreate_of_removed hrm
    obtain ⟨hall, hcause⟩ := createAll_of_path hpath d₁
    rw [hok, hall, and_iff_right hnot]
    by_cases hdot : p.steps.getLast? = some "."
    · -- The emptied directory is still there, but the path to it is not
      obtain rfl := hstay hdot
      obtain ⟨r, hr⟩ := hq.above h
      have hloc := (hr.within hw hd₁).resolve_left fun hr₁ => hnot ⟨r, hr₁, .inl hdot⟩
      have hrestores := createAfter_of_stay hd₁ hw hq hdot hloc
      refine ⟨hrestores.trans (imp_iff_right hdot).symm, fun hno => absurd hdot hno, fun e he => ?_⟩
      obtain ⟨cause, hmk, rfl⟩ := herror e he
      obtain ⟨os, rfl⟩ := hcause cause hmk
      rw [hdisk]
      exact ⟨⟨os, rfl⟩, createAll_grows dir hd₁⟩
    · have hmade := createAfter_within h hd₁ hw hq hdot
      refine ⟨iff_of_true hmade fun hyes => absurd hyes hdot, fun _ _ => hmade, fun e he => ?_⟩
      rw [hok.mpr (hall.mpr hmade)] at he
      cases he

/-- By a link to it, a directory is left alone and the reset succeeds. -/
theorem reset_succeeds_linked :
    (∀ s ∈ linkedDisk.cwd.place, IsEntryName s) ∧
      linkedDisk.find .follow "keys" = .ok (.ofPlace ["vault"]) ∧
      (reset "keys" linkedDisk).1 = .ok () := by
  have hpath : Path.ofString "keys" = ⟨false, ["keys"], false⟩ := by decide_cbv
  have hfind : linkedDisk.find .follow "keys" = .ok (.ofPlace ["vault"]) :=
    find_of_pathLeads linkedDisk_standing
      (pathOf_of_fits (by decide) (by decide) (by decide)) linkedDisk_leads.2.2
  have hsucceeds := reset_succeeds_iff linkedDisk "keys" linkedDisk_standing
    linkedDisk_isEntryName hfind (by decide) (by decide)
  rw [hpath] at hsucceeds
  exact ⟨linkedDisk_isEntryName, hfind, hsucceeds.2.1 (by decide) rfl⟩

/-- By a path that ends in `.`, the directory is emptied and the reset fails. -/
theorem reset_fails_after_emptying :
    staleDisk.Standing ∧ staleDisk.find .follow "b/." = .ok (.ofPlace ["b"]) ∧
      staleDisk.root.kindAt ["b"] = some .dir ∧ ¬ ["b"] <+: staleDisk.cwd.place ∧
      reset "b/." staleDisk =
        (.error (.outputDir "b/." (.os .invalidArgument)), ⟨.dir [("b", .dir [])], .root⟩) := by
  have hstanding : staleDisk.Standing := ⟨rfl, by decide⟩
  have hpath : pathOf "b/." = .ok ⟨false, ["b", "."], false⟩ := by decide +kernel
  have hb : IsName "b" := ⟨by decide, by decide, by decide⟩
  have hlead (last : LastLink) : staleDisk.PathLeads last ⟨false, ["b", "."], false⟩ ["b"] :=
    ⟨0, Nat.zero_le _, .enter hb (k := .dir) rfl (by simp) (.stay rfl .done)⟩
  have hfind := find_of_pathLeads hstanding hpath (hlead .follow)
  have hencloses : encloses staleDisk staleDisk.cwd.place "b/." = false := by
    refine encloses_eq_false hstanding (fun _ hs => absurd hs List.not_mem_nil) (by decide) ?_
    rintro ⟨q, hq, hle⟩
    obtain ⟨r, hr, hlead⟩ := names_of_find hstanding hfind
    obtain rfl : ["b"] = r := congrArg Spot.place hr
    rw [hq.2.2.unique hlead.2.2] at hle
    exact absurd hle (by decide)
  -- The emptied directory cannot be removed by a path that ends in `.`
  have hloc : (staleDisk.clear ["b"]).locatePath ⟨false, ["b", "."], false⟩ =
      .ok (.ofPlace ["b"], .stay) :=
    (locatePath_eq_ok_iff ⟨rfl, rfl⟩).mpr ⟨rfl, ["b"], rfl, rfl, 0, Nat.zero_le _,
      .enter hb (k := .dir) rfl (by simp) .done⟩
  have hremove : removeAll "b/." staleDisk =
      (.error (.os .invalidArgument), staleDisk.clear ["b"]) := by
    have hrmdir : (staleDisk.clear ["b"]).rmdir "b/." = .error (.os .invalidArgument) := by
      simp only [rmdir, hpath, bind, Except.bind, rmdirPath, rmdirPlace, hloc]
      rfl
    have hdir : staleDisk.node? (.ofPlace ["b"]) = some (.dir [("old.jks", .file [1] .data)]) := rfl
    rw [removeAll, find_of_pathLeads hstanding hpath (hlead .keep)]
    simp only [hdir, ofPlace_place, hrmdir]
  have hreset : reset "b/." staleDisk =
      (.error (.outputDir "b/." (.os .invalidArgument)), ⟨.dir [("b", .dir [])], .root⟩) := by
    rw [reset_of_standing hstanding, hencloses, if_neg (by decide_cbv),
      recreate_eq_error hremove (by decide)]
    rfl
  exact ⟨hstanding, hfind, by decide, by decide, hreset⟩

end OutputDir

end Keysmith
