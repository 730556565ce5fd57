import Keysmith.Proofs.DirectoryMaking

/-!
# Paths after a loss

Where entries are gone, a path that led to a place before leads to the same place, or it breaks
off for lack of an entry: it comes to no other place and fails for no other reason.  Making the
directories of such a path then meets nothing but directories and names that are taken.

* `follow_within`  where a path leads on a disk that shows less
* `Above.within`   the same for all steps but the last
* `createAfter_within`  what making the directories of the path comes to
-/

namespace Keysmith

open Disk (LastLink)

/-! ## Steps that lead somewhere -/

/-- A step is a name, or it only moves between directories. -/
def IsStep (s : String) : Prop := s = "." ∨ s = ".." ∨ IsName s

namespace Leads

variable {v : Place → Option Kind} {last : LastLink} {n : Nat} {here q : Place}
  {steps : List String}

theorem isStep (h : Leads v last n here steps q) : ∀ s ∈ steps, IsStep s := by
  induction h with
  | done => simp
  | stay _ _ ih => exact List.forall_mem_cons.mpr ⟨.inl rfl, ih⟩
  | up _ _ ih => exact List.forall_mem_cons.mpr ⟨.inr (.inl rfl), ih⟩
  | enter hs _ _ _ ih => exact List.forall_mem_cons.mpr ⟨.inr (.inr hs), ih⟩
  | kept hs => exact List.forall_mem_cons.mpr ⟨.inr (.inr hs), by simp⟩
  | link hs _ _ _ ih =>
    exact List.forall_mem_cons.mpr
      ⟨.inr (.inr hs), fun s hmem => ih s (List.mem_append_right _ hmem)⟩

/-- If a last link is kept, steps lead to the same place or to a link. -/
theorem keep_of_follow (h : Leads v .follow n here steps q) :
    ∃ m, m ≤ n ∧ (Leads v .keep m here steps q ∨
      ∃ x target, Leads v .keep m here steps x ∧ v x = some (.link target)) := by
  generalize hlast : LastLink.follow = last at h
  induction h with
  | done => exact ⟨0, Nat.le_refl 0, .inl .done⟩
  | stay hdir _ ih =>
    obtain ⟨m, hm, h | ⟨x, target, h, hx⟩⟩ := ih
    · exact ⟨m, hm, .inl (.stay hdir h)⟩
    · exact ⟨m, hm, .inr ⟨x, target, .stay hdir h, hx⟩⟩
  | up hdir _ ih =>
    obtain ⟨m, hm, h | ⟨x, target, h, hx⟩⟩ := ih
    · exact ⟨m, hm, .inl (.up hdir h)⟩
    · exact ⟨m, hm, .inr ⟨x, target, .up hdir h, hx⟩⟩
  | enter hs hk hnot _ ih =>
    obtain ⟨m, hm, h | ⟨x, target, h, hx⟩⟩ := ih
    · exact ⟨m, hm, .inl (.enter hs hk hnot h)⟩
    · exact ⟨m, hm, .inr ⟨x, target, .enter hs hk hnot h, hx⟩⟩
  | kept hs hk => exact ⟨0, Nat.le_refl 0, .inr ⟨_, _, .kept hs hk rfl, hk⟩⟩
  | @link n here s target rest q hs hk _ _ ih =>
    by_cases hrest : rest = []
    · -- This is the last link
      subst hrest
      exact ⟨0, Nat.zero_le _, .inr ⟨_, _, .kept hs hk rfl, hk⟩⟩
    · have hgo : rest = [] → LastLink.keep = .follow := fun hnil => absurd hnil hrest
      obtain ⟨m, hm, h | ⟨x, t, h, hx⟩⟩ := ih
      · exact ⟨m + 1, Nat.succ_le_succ hm, .inl (.link hs hk hgo h)⟩
      · exact ⟨m + 1, Nat.succ_le_succ hm, .inr ⟨x, t, .link hs hk hgo h, hx⟩⟩

/-- Steps that only stay can be put in on the way to a directory. -/
theorem of_filter_stay {t : Node} (h : Leads t.kindAt .follow n here (steps.filter (· != ".")) q)
    (hq : t.kindAt q = some .dir) : Leads t.kindAt .follow n here steps q := by
  induction steps generalizing n here with
  | nil => exact h
  | cons s steps ih =>
    by_cases hs : s = "."
    · subst hs
      rw [List.filter_cons_of_neg (by simp)] at h
      refine .stay ?_ (ih h)
      by_cases hnil : steps.filter (· != ".") = []
      · rw [hnil] at h
        cases h
        exact hq
      · exact h.dir_of_ne_nil hnil
    · rw [List.filter_cons_of_pos (by simpa using hs)] at h
      by_cases hnil : steps.filter (· != ".") = []
      · -- The first step leads there, and all others stay
        rw [hnil] at h
        have hstay : Leads t.kindAt .follow 0 q steps q := ih (by rw [hnil]; exact .done)
        exact h.append hstay fun _ => rfl
      · obtain ⟨n₁, n₂, mid, rfl, hfirst, hrest⟩ := h.split (a := [s]) hnil
        exact hfirst.append (ih hrest) fun _ => rfl

/-- The steps of a path lead where its components lead. -/
theorem of_components {t : Node} {p : Path} (h : Leads t.kindAt .follow n here p.components q)
    (hq : t.kindAt q = some .dir) : Leads t.kindAt .follow n here p.steps q := by
  rw [Path.components] at h
  split at h
  · rename_i hnil
    rwa [hnil]
  · rename_i first rest hcons
    rw [hcons]
    split at h
    · rename_i hdot
      simp only [Bool.and_eq_true, beq_iff_eq] at hdot
      rw [hdot.1] at h ⊢
      exact .stay h.of_stay.1 (h.of_stay.2.of_filter_stay hq)
    · exact h.of_filter_stay hq

end Leads

namespace Disk

/-! ## Disks that show less -/

/-- Nothing is on a disk but what is there on another one too. -/
structure Within (d' d : Disk) : Prop where
  cwd_eq : d'.cwd = d.cwd
  kept : ∀ q k, d'.root.kindAt q = some k → d.root.kindAt q = some k

theorem Within.trans {d d' d'' : Disk} (h' : Within d'' d') (h : Within d' d) : Within d'' d where
  cwd_eq := h'.cwd_eq.trans h.cwd_eq
  kept q k hk := h.kept q k (h'.kept q k hk)

/-- What is still there is what it was. -/
theorem Within.kindAt_eq {d d' : Disk} (h : Within d' d) {q : Place}
    (hq : d'.root.kindAt q ≠ none) : d'.root.kindAt q = d.root.kindAt q := by
  obtain ⟨k, hk⟩ := Option.ne_none_iff_exists'.mp hq
  rw [hk, h.kept q k hk]

/-- A directory in which something was is a directory still, if it is there. -/
theorem Within.dir_of_entry {d d' : Disk} (h : Within d' d) {here : Place} {s : String} {k : Kind}
    (hhere : d'.root.kindAt here ≠ none) (hk : d.root.kindAt (here ++ [s]) = some k) :
    d'.root.kindAt here = some .dir :=
  (h.kindAt_eq hhere).trans
    (Node.kindAt_dir_of_entry hk)

theorem within_remove {d : Disk} (h : d.Standing) {x : Place} (hx : ¬ x <+: d.cwd.place) :
    Within (d.remove x) d := by
  have hne : x ≠ [] := fun hnil => hx (hnil ▸ List.nil_prefix)
  refine ⟨(remove_standing h hx).1, fun q k hk => ?_⟩
  rw [remove, Node.kindAt_remove _ hne] at hk
  split at hk
  · cases hk
  · exact hk

theorem within_clear {d : Disk} (h : d.Standing) {x : Place} (hx : ¬ x <+: d.cwd.place)
    (hdir : d.root.kindAt x = some .dir) : Within (d.clear x) d := by
  refine ⟨(clear_standing h hx hdir).1, fun q k hk => ?_⟩
  rw [clear, Node.kindAt_clear hdir] at hk
  split at hk
  · cases hk
  · exact hk

section Within

variable {d d' : Disk} (hw : Within d' d)
include hw

/-- Steps lead where they led before, or they break off. -/
theorem follow_within {last : LastLink} {n links : Nat} {here q : Place} {steps : List String}
    (h : Leads d.root.kindAt last n here steps q) (hn : n ≤ links)
    (hhere : d'.root.kindAt here ≠ none) :
    Leads d'.root.kindAt last n here steps q ∨
      IsMissing (d'.follow last links (.ofPlace here) steps) := by
  induction h generalizing links with
  | done => exact .inl .done
  | @stay n here rest q hdir _ ih =>
    have hdir' := (hw.kindAt_eq hhere).trans hdir
    rw [follow_stay hdir']
    exact (ih hn hhere).imp_left (.stay hdir')
  | @up n here rest q hdir _ ih =>
    have hdir' := (hw.kindAt_eq hhere).trans hdir
    have hup : d'.root.kindAt here.dropLast = some .dir :=
      Node.kindAt_dir_above here.dropLast_prefix hdir'
    rw [follow_up hdir']
    exact (ih hn (by simp [hup])).imp_left (.up hdir')
  | @enter n here s k rest q hs hk hnot _ ih =>
    by_cases hnext : d'.root.kindAt (here ++ [s]) = none
    · exact .inr (follow_absent (hw.dir_of_entry hhere hk) hs hnext)
    · have hk' := (hw.kindAt_eq hnext).trans hk
      rw [follow_enter hs hk' hnot]
      exact (ih hn hnext).imp_left (.enter hs hk' hnot)
  | @kept here s target hs hk hkeep =>
    by_cases hnext : d'.root.kindAt (here ++ [s]) = none
    · exact .inr (follow_absent (hw.dir_of_entry hhere hk) hs hnext)
    · exact .inl (.kept hs ((hw.kindAt_eq hnext).trans hk) hkeep)
  | @link n here s target rest q hs hk hlast _ ih =>
    have hdir' := hw.dir_of_entry hhere hk
    by_cases hnext : d'.root.kindAt (here ++ [s]) = none
    · exact .inr (follow_absent hdir' hs hnext)
    · have hk' := (hw.kindAt_eq hnext).trans hk
      obtain ⟨links, rfl⟩ := Nat.exists_eq_add_of_le' hn
      have hstart : d'.root.kindAt (startPlace (Path.ofString target) here) = some .dir :=
        Node.kindAt_dir_above (startPlace_le _ here) hdir'
      rw [← Nat.add_assoc, follow_link hs hk' hlast]
      exact (ih (Nat.le_add_left n links) (by simp [hstart])).imp_left (.link hs hk' hlast)

/-- All steps but the last lead where they led before, or they break off. -/
theorem Above.within {p : Path} {r : Place} (hd' : d'.Standing) (h : d.Above p r) :
    d'.Above p r ∨ d'.locatePath p = .error .noEntry := by
  obtain ⟨hdir, n, hn, hlead⟩ := h
  have hstart := hd'.start_isDir p
  rw [← hw.cwd_eq] at hlead
  rcases follow_within hw hlead hn (by simp [hstart]) with hlead' | hmissing
  · have hthere := (hlead'.not_link (by simp [hstart])).1
    exact .inl ⟨(hw.kindAt_eq hthere).trans hdir, n, hn, hlead'⟩
  · refine .inr ?_
    rw [locatePath, locateFrom, hd'.start_eq]
    obtain hm | ⟨dir, name, hm⟩ := hmissing <;> rw [hm]

end Within

/-! ## Making a directory below one that is there -/

section Making

variable {d d' : Disk} {p : Path} {q r : Place}

/-- A directory that was made or was there is where the path leads. -/
theorem leadsToDirectory_of_ensureDirectory (h : d.Standing)
    (hmk : ensureDirectory p d = (.ok (), d')) : d'.leadsToDirectory p = true := by
  have hcases := ensureDirectory_cases h p
  have hgrow := ensureDirectory_grows h p
  rw [hmk] at hcases hgrow
  have hd' := hgrow.standing h
  generalize ho : ((.ok (), d') : Except OsError Unit × Disk) = o at hcases
  cases hcases with
  | made hfree =>
    cases ho
    obtain ⟨hlead, hat⟩ := hfree.leads_made
    exact (leadsToDirectory_iff hd').mpr ⟨_, hlead, Node.kindAt_eq_dir_iff.mpr ⟨[], hat⟩⟩
  | present _ hlead =>
    cases ho
    exact hlead
  | failed => cases ho

/-- Below a directory that is there, a directory is made or is there, or its name is taken. -/
theorem ensureDirectory_of_above (h : d.Standing) (hr : d.Above p r)
    (hlast : ∀ s, p.steps.getLast? = some s → IsStep s) :
    (∃ d', ensureDirectory p d = (.ok (), d') ∧ d'.leadsToDirectory p = true) ∨
      ensureDirectory p d = (.error .alreadyExists, d) := by
  have hloc := (locatePath_eq_ok_iff h).mpr ⟨rfl, r, rfl, hr⟩
  have hmk : (∃ d', d.mkdirPath p = .ok d') ∨ d.mkdirPath p = .error .alreadyExists := by
    rw [mkdirPath, hloc]
    cases hstep : lastStep p with
    | root => exact .inr rfl
    | stay => exact .inr rfl
    | up => exact .inr rfl
    | name s =>
      obtain ⟨hs, hdot, hup⟩ := lastStep_eq_name_iff.mp hstep
      have hname := ((hlast s hs).resolve_left hdot).resolve_left hup
      have hent := (lookup?_eq_ok_iff hr.1).mpr ⟨hname.size_le, rfl⟩
      dsimp only
      rw [hent]
      cases d.root.at? (r ++ [s]) with
      | none => exact .inl ⟨_, rfl⟩
      | some x => exact .inr rfl
  rcases hmk with ⟨d', hmk⟩ | hmk
  · have hok : ensureDirectory p d = (.ok (), d') := by rw [ensureDirectory, hmk]
    exact .inl ⟨d', hok, leadsToDirectory_of_ensureDirectory h hok⟩
  · rw [ensureDirectory, hmk]
    dsimp only
    split
    · rename_i hlead
      exact .inl ⟨d, rfl, hlead⟩
    · exact .inr rfl

/-- A path has a directory above its last step if the components of the steps before it lead to
    one. -/
theorem above_of_leadsToDirectory (h : d.Standing)
    (hlead : d.leadsToDirectory
      ⟨p.absolute, ({ p with steps := p.steps.dropLast } : Path).components, false⟩ = true) :
    ∃ r, d.Above p r := by
  obtain ⟨r, ⟨n, hn, hr⟩, hdir⟩ := (leadsToDirectory_iff h).mp hlead
  exact ⟨r, hdir, n, hn, Leads.of_components (p := { p with steps := p.steps.dropLast }) hr hdir⟩

end Making

/-! ## Making all directories of a path -/

/-- The components of a path, but for the last ones, lead to directories. -/
theorem PathLeads.above_components {d : Disk} {p : Path} {q : Place}
    (hq : d.PathLeads .follow p q) {l : List String} (hl : l <:+ p.components.reverse)
    (hne : l ≠ []) : ∃ r, d.Above ⟨p.absolute, l.reverse, false⟩ r := by
  obtain ⟨n, hn, hlead⟩ := hq
  have hsteps : Leads d.root.kindAt .follow n (startPlace p d.cwd.place) p.steps q := by
    rw [walk_eq] at hlead
    split at hlead
    · -- A slash at the end stays where the steps lead
      obtain ⟨n₁, n₂, mid, rfl, hfirst, hstay⟩ := hlead.split (List.cons_ne_nil _ _)
      cases hstay.of_stay.2
      exact hfirst
    · rwa [List.append_nil] at hlead
  obtain ⟨b, hb⟩ : l.reverse <+: p.components := by simpa using List.reverse_prefix.mpr hl
  have hlast : l.reverse = l.reverse.dropLast ++ [l.reverse.getLast (by simpa using hne)] :=
    (List.dropLast_append_getLast _).symm
  have hcomps := hsteps.components
  rw [← hb, hlast, List.append_assoc] at hcomps
  obtain ⟨n₁, n₂, mid, rfl, hfirst, hrest⟩ := hcomps.split (List.cons_ne_nil _ _)
  exact ⟨mid, hrest.dir_of_ne_nil (List.cons_ne_nil _ _), n₁, (Nat.le_add_right n₁ n₂).trans hn,
    hfirst⟩

/-- Where the way along the components meets directories or breaks off, making them all makes a
    directory at the last of them, unless a name is taken.  They are given the last one first. -/
theorem createComponents_of_way {d : Disk} (h : d.Standing) {absolute : Bool}
    {comps : List String} (hsteps : ∀ s ∈ comps, IsStep s)
    (hway : ∀ l, l <:+ comps → l ≠ [] → (∃ r, d.Above ⟨absolute, l.reverse, false⟩ r) ∨
      d.locatePath ⟨absolute, l.reverse, false⟩ = .error .noEntry) :
    (∃ d', createComponents absolute comps d = (.ok (), d') ∧
      d'.leadsToDirectory ⟨absolute, comps.reverse, false⟩ = true) ∨
    (createComponents absolute comps d).1 = .error .alreadyExists := by
  -- On the components: each is made below those above it
  induction comps with
  | nil =>
    refine .inl ⟨d, rfl, (leadsToDirectory_iff h).mpr ⟨_, ⟨0, Nat.zero_le _, .done⟩, ?_⟩⟩
    exact h.start_isDir _
  | cons name above ih =>
    let p : Path := ⟨absolute, (name :: above).reverse, false⟩
    have hlast : ∀ s, p.steps.getLast? = some s → IsStep s :=
      fun s hs => hsteps s (List.mem_reverse.mp (List.mem_of_getLast? hs))
    have hinit : p.steps.dropLast = above.reverse := by simp [p]
    have hafter : createComponents absolute (name :: above) d =
        createAfter (createComponents absolute above) p d := rfl
    rw [hafter]
    rcases hway _ List.suffix_rfl (List.cons_ne_nil name above) with ⟨r, hr⟩ | hloc
    · -- The directory above is there
      rcases ensureDirectory_of_above h hr hlast with ⟨d', hmk, hlead⟩ | hmk
      · rw [createAfter_of_ne (by rw [hmk]; simp)]
        exact .inl ⟨d', hmk, hlead⟩
      · rw [createAfter_of_ne (by rw [hmk]; simp)]
        exact .inr (by rw [hmk])
    · -- It is made first
      have hfirst := ensureDirectory_of_missing h hloc
      rcases ih (fun s hs => hsteps s (List.mem_cons_of_mem _ hs))
        (fun l hl => hway l (hl.trans (List.suffix_cons _ _))) with ⟨d₂, hmk, hlead⟩ | hexists
      · have hgrow := createComponents_grows absolute above h
        rw [hmk] at hgrow
        have hd₂ : d₂.Standing := hgrow.standing h
        obtain ⟨r, ⟨n, hn, hr⟩, hdir⟩ := (leadsToDirectory_iff hd₂).mp hlead
        have habove : d₂.Above p r := ⟨hdir, n, hn, by rw [hinit]; exact hr⟩
        rw [createAfter_of_ok hfirst hmk]
        exact (ensureDirectory_of_above hd₂ habove hlast).imp_right fun hmk' => by rw [hmk']
      · rw [createAfter_of_error hfirst hexists]
        exact .inr hexists

section Within

variable {d d' : Disk} {p : Path} {q : Place}

/-- The components of a path that led to a place, on a disk that shows less. -/
theorem createComponents_within (hd' : d'.Standing) (hw : Within d' d)
    (hq : d.PathLeads .follow p q) :
    (∃ d₂, createComponents p.absolute p.components.reverse.tail d' = (.ok (), d₂) ∧
      d₂.leadsToDirectory ⟨p.absolute, p.components.reverse.tail.reverse, false⟩ = true) ∨
    (createComponents p.absolute p.components.reverse.tail d').1 = .error .alreadyExists := by
  refine createComponents_of_way hd' (fun s hs => ?_) fun l hl hne => ?_
  · obtain ⟨n, -, hlead⟩ := hq
    refine hlead.isStep s ?_
    rw [walk_eq]
    exact List.mem_append_left _
      (mem_steps_of_mem_components (List.mem_reverse.mp (List.mem_of_mem_tail hs)))
  · obtain ⟨r, hr⟩ := hq.above_components (hl.trans (List.tail_suffix _)) hne
    exact (hr.within hw hd').imp_left fun hr' => ⟨r, hr'⟩

/-- By a path that led to a place, a directory can be made on a disk that shows less, unless a
    name is taken.  The last step must not stay: then its directory is not one of those above. -/
theorem createAfter_within (h : d.Standing) (hd' : d'.Standing) (hw : Within d' d)
    (hq : d.PathLeads .follow p q) (hlast : p.steps.getLast? ≠ some ".") :
    let o := createAfter (createComponents p.absolute p.components.reverse.tail) p d'
    o.1 = .ok () ∨ o.1 = .error .alreadyExists := by
  intro o
  have hstep : ∀ s, p.steps.getLast? = some s → IsStep s := by
    intro s hs
    obtain ⟨n, -, hlead⟩ := hq
    refine hlead.isStep s ?_
    rw [walk_eq]
    exact List.mem_append_left _ (List.mem_of_getLast? hs)
  have hend {d₂ : Disk} (hd₂ : d₂.Standing) {r : Place} (hr : d₂.Above p r) :
      (ensureDirectory p d₂).1 = .ok () ∨ (ensureDirectory p d₂).1 = .error .alreadyExists :=
    (ensureDirectory_of_above hd₂ hr hstep).imp (fun ⟨_, hmk, _⟩ => by rw [hmk])
      fun hmk => by rw [hmk]
  obtain ⟨r, hr⟩ := hq.above h
  rcases hr.within hw hd' with hr' | hloc
  · have hmk := hend hd' hr'
    dsimp only [o]
    rwa [createAfter_of_ne (by rcases hmk with hmk | hmk <;> simp [hmk])]
  · have hfirst := ensureDirectory_of_missing hd' hloc
    dsimp only [o]
    rcases createComponents_within hd' hw hq with ⟨d₂, hmk, hlead⟩ | hexists
    · -- The directories above are there by now
      have hgrow := createComponents_grows p.absolute p.components.reverse.tail hd'
      rw [hmk] at hgrow
      have hd₂ : d₂.Standing := hgrow.standing hd'
      rw [createAfter_of_ok hfirst hmk]
      cases hs : p.steps.getLast? with
      | none =>
        -- Then there is no step, and the way to it does not break off
        have habove : d'.Above p (startPlace p d'.cwd.place) := by
          refine ⟨hd'.start_isDir p, 0, Nat.zero_le _, ?_⟩
          rw [List.getLast?_eq_none_iff.mp hs]
          exact .done
        cases hloc.symm.trans ((locatePath_eq_ok_iff hd').mpr ⟨rfl, _, rfl, habove⟩)
      | some s =>
        have hne : s ≠ "." := fun hdot => hlast (hdot ▸ hs)
        have hinit : p.components.reverse.tail.reverse =
            ({ p with steps := p.steps.dropLast } : Path).components := by
          rw [components_concat (steps_eq_of_getLast? hs) hne]
          simp
        rw [hinit] at hlead
        obtain ⟨r, hr⟩ := above_of_leadsToDirectory hd₂ hlead
        exact hend hd₂ hr
    · rw [createAfter_of_error hfirst hexists]
      exact .inr hexists

end Within

end Disk

end Keysmith
