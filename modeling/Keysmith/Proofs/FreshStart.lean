import Keysmith.KeyTool.StandIn
import Keysmith.Proofs.DirectoryMaking
import Keysmith.Proofs.DirectoryRenewal
import Keysmith.Proofs.FileWriting
import Keysmith.Proofs.ProperTree
import Keysmith.Proofs.RunLedger

/-!
# Every run starts afresh

A run empties its output directory before anything else.  What was there before can
therefore make no difference to it, whatever the tool reads or writes:

* `reset_congr`        the reset of two disks that differ in one entry comes to one disk
* `tool_keepsTo`       a stand-in changes nothing outside the output directory
* `run_keepsTo`        nor does a run with such a tool
* `run_forgets`        the runs on two disks that differ in that entry are the same in every
  respect, and a run with such a tool can be repeated
-/

namespace Keysmith

/-! ## Disks that differ in one entry -/

namespace Disk

/-- Two disks are the same but for what they have at and below a place. -/
structure DifferOnlyAt (place : Place) (d d' : Disk) : Prop where
  cwd_eq : d.cwd = d'.cwd
  rest_eq : d.root.remove place = d'.root.remove place

/-- What a disk can be before a run with an output directory of this name: the working
    directory exists, and its entry of the name is missing, a directory, or a link that leads
    neither to the working directory nor to one that encloses it. -/
structure ReadyFor (d : Disk) (name : String) : Prop where
  standing : d.Standing
  proper : d.root.Proper
  entry : d.root.kindAt (d.cwd.place ++ [name]) = none ∨
    d.root.kindAt (d.cwd.place ++ [name]) = some .dir ∨
    (∃ target, d.root.kindAt (d.cwd.place ++ [name]) = some (.link target)) ∧
      ¬ ∃ q, d.Names .follow name q ∧ q <+: d.cwd.place

/-- A disk with a directory of this name in the working directory, and no link in that. -/
structure HasDir (d : Disk) (name : String) : Prop where
  standing : d.Standing
  proper : d.root.Proper
  isDir : d.root.kindAt (d.cwd.place ++ [name]) = some .dir
  noLink : ∀ s target, d.root.kindAt (d.cwd.place ++ [name] ++ [s]) ≠ some (.link target)

variable {d d₁ d₂ : Disk} {name : String}

theorem HasDir.readyFor (h : d.HasDir name) : d.ReadyFor name :=
  ⟨h.standing, h.proper, .inr (.inl h.isDir)⟩

theorem ReadyFor.isRenewable (h : d.ReadyFor name) (hn : IsEntryName name) :
    d.IsRenewable name where
  fits := hn
  notFile content mode hfile := by
    rcases h.entry with hk | hk | ⟨⟨target, hk⟩, -⟩ <;> cases hk.symm.trans hfile
  notEnclosing := by
    refine OutputDir.encloses_eq_false h.standing
      (h.proper.isEntryName_of_mem (by simp [h.standing.isDir])) hn.ne_empty ?_
    rcases h.entry with hk | hk | ⟨-, hnot⟩
    · -- The path leads nowhere
      rintro ⟨q, ⟨-, -, hq⟩, -⟩
      rw [hn.ofString_eq] at hq
      exact (isFree_entryName h.standing hn hk).not_pathLeads hq
    · -- It leads to the directory itself
      rintro ⟨q, ⟨-, -, hq⟩, hle⟩
      rw [hn.ofString_eq] at hq
      have hlead := (above_component h.standing name).pathLeads rfl hn.isName hk (by simp)
        (fun _ => rfl) .follow
      rw [hq.unique hlead] at hle
      exact not_entry_le_cwd d name hle
    · exact hnot

/-- On a proper tree, whatever has the name is taken out first. -/
theorem renewed_eq (h : d.root.Proper) (name : String) :
    d.renewed name =
      ⟨(d.root.remove (d.cwd.place ++ [name])).insert d.cwd.place name (.dir []), d.cwd⟩ := by
  have hcwd : (d.remove (d.cwd.place ++ [name])).cwd = d.cwd := by
    rw [remove, Spot.afterRemove, if_neg]
    rw [List.isPrefixOf_iff_prefix]
    exact not_entry_le_cwd d name
  rw [renewed]
  split
  · rename_i hk
    rw [insert, h.remove_eq_self hk]
  · rw [insert, hcwd]
    rfl

/-- After the reset the directory is there. -/
theorem ReadyFor.hasDir_renewed (h : d.ReadyFor name) (hn : IsEntryName name) :
    (d.renewed name).HasDir name := by
  have hcwd := renewed_cwd h.standing name
  have hkind := kindAt_renewed h.standing name
  refine ⟨⟨?_, ?_⟩, ?_, ?_, fun s target => ?_⟩
  · rw [hcwd]
    exact h.standing.present
  · rw [hcwd, hkind, if_neg (by simp), if_neg (not_entry_le_cwd d name)]
    exact h.standing.isDir
  · have hfree : (d.root.remove (d.cwd.place ++ [name])).kindAt (d.cwd.place ++ [name]) = none := by
      rw [Node.kindAt_remove _ (by simp), if_pos List.prefix_rfl]
    rw [renewed_eq h.proper]
    exact (h.proper.after_remove ..).after_insert hn .empty hfree
  · rw [hcwd, hkind, if_pos rfl]
  · rw [hcwd, hkind, if_neg (by simp), if_pos (List.prefix_append _ [s])]
    simp

theorem DifferOnlyAt.refl (place : Place) (d : Disk) : DifferOnlyAt place d d := ⟨rfl, rfl⟩

theorem DifferOnlyAt.trans {place : Place} {d₃ : Disk} (h : DifferOnlyAt place d₁ d₂)
    (h' : DifferOnlyAt place d₂ d₃) : DifferOnlyAt place d₁ d₃ :=
  ⟨h.cwd_eq.trans h'.cwd_eq, h.rest_eq.trans h'.rest_eq⟩

/-- A renewed disk differs from what it was only in the directory that was renewed. -/
theorem differOnlyAt_renewed (h : d.root.Proper) (name : String) :
    DifferOnlyAt (d.cwd.place ++ [name]) d (d.renewed name) := by
  rw [Disk.renewed_eq h]
  exact ⟨rfl, (Node.remove_insert_remove ..).symm⟩

theorem DifferOnlyAt.renewed_eq (h : DifferOnlyAt (d₁.cwd.place ++ [name]) d₁ d₂)
    (h₁ : d₁.root.Proper) (h₂ : d₂.root.Proper) : d₁.renewed name = d₂.renewed name := by
  rw [Disk.renewed_eq h₁, Disk.renewed_eq h₂, h.rest_eq, h.cwd_eq]

/-- Disks that lack the entry in which they could differ are the same. -/
theorem DifferOnlyAt.eq_of_absent (h : DifferOnlyAt (d₁.cwd.place ++ [name]) d₁ d₂)
    (h₁ : d₁.root.Proper) (h₂ : d₂.root.Proper)
    (hk₁ : d₁.root.kindAt (d₁.cwd.place ++ [name]) = none)
    (hk₂ : d₂.root.kindAt (d₁.cwd.place ++ [name]) = none) : d₁ = d₂ := by
  have hroot := h.rest_eq
  rw [h₁.remove_eq_self hk₁, h₂.remove_eq_self hk₂] at hroot
  cases d₁
  cases d₂
  cases hroot
  cases h.cwd_eq
  rfl

end Disk

open Disk

/-- The reset of two disks that differ in one entry comes to one disk. -/
theorem OutputDir.reset_congr {d₁ d₂ : Disk} {name : String} (h₁ : d₁.ReadyFor name)
    (h₂ : d₂.ReadyFor name) (h : DifferOnlyAt (d₁.cwd.place ++ [name]) d₁ d₂) :
    reset name d₁ = reset name d₂ := by
  by_cases hn : IsEntryName name
  · rw [reset_eq_ok h₁.standing (h₁.isRenewable hn), reset_eq_ok h₂.standing (h₂.isRenewable hn),
      h.renewed_eq h₁.proper h₂.proper]
  · -- Neither disk has an entry of such a name
    have hk₁ : d₁.root.kindAt (d₁.cwd.place ++ [name]) = none := by
      by_contra hk
      exact hn (h₁.proper.isEntryName hk)
    have hk₂ : d₂.root.kindAt (d₁.cwd.place ++ [name]) = none := by
      by_contra hk
      exact hn (h₂.proper.isEntryName hk)
    rw [h.eq_of_absent h₁.proper h₂.proper hk₁ hk₂]

/-! ## Tools that keep to a directory -/

section Keeping

variable {τ ε α : Type}

/-- An action that leaves a directory where it is and changes nothing outside of it. -/
def Action.KeepsTo (name : String) (x : Action τ ε α) : Prop :=
  ∀ d m, d.HasDir name →
    (x d m).disk.HasDir name ∧ DifferOnlyAt (d.cwd.place ++ [name]) d (x d m).disk

/-- A tool that keeps to a directory when it is to make its files there. -/
structure KeyTool.KeepsTo (name : String) (tool : KeyTool τ) : Prop where
  reports : tool.reportVersion.KeepsTo name
  generates : ∀ r, r.keystore = (Artifacts.inDir name).serverKeystore →
    (tool.generateKeypair r).KeepsTo name
  exports : ∀ r, r.dest = (Artifacts.inDir name).certificate →
    (tool.exportCertificate r).KeepsTo name
  imports : ∀ r, r.keystore = (Artifacts.inDir name).clientKeystore →
    (tool.importCertificate r).KeepsTo name

end Keeping

/-! ### Writing -/

namespace Disk

variable {d : Disk} {name s : String} {mode : Mode} {o : Disk × Place}

/-- The file that is opened is the entry, because no step of the path is a link. -/
theorem Opening.place_eq (ho : Opening d mode (Path.ofString (Path.join name s)) o)
    (h : d.HasDir name) (hname : IsComponent name) (hs : IsComponent s) :
    o.2 = d.cwd.place ++ [name] ++ [s] := by
  obtain ⟨hcwd, hlead, content, held, hkind⟩ := ho.leads
  rw [← hcwd]
  refine hlead.of_components hname hs hkind (fun target => ?_) ?_
  · rw [hcwd, h.isDir]
    simp
  · rw [hcwd]
    exact h.noLink s

/-- Opening an entry makes at most this entry. -/
theorem Opening.keepsTo (ho : Opening d mode (Path.ofString (Path.join name s)) o)
    (h : d.HasDir name) (hname : IsComponent name) (hs : IsEntryName s) :
    o.1.root.Proper ∧
      o.1.root.remove (d.cwd.place ++ [name]) = d.root.remove (d.cwd.place ++ [name]) := by
  have hplace := ho.place_eq h hname hs.toIsComponent
  cases ho with
  | found => exact ⟨h.proper, rfl⟩
  | @made q last hq =>
    obtain ⟨rfl, ⟨⟩⟩ := List.append_inj' hplace rfl
    have hbelow := Node.remove_modify_below (Node.withEntry s (.file [] mode)) d.root
      d.cwd.place name []
    rw [List.append_nil] at hbelow
    exact ⟨h.proper.after_insert hs (.file ..) hq.free, hbelow⟩

/-- Writing an entry of the directory keeps to it. -/
theorem write_keepsTo {d' : Disk} {content : Bytes} (h : d.HasDir name)
    (hname : IsComponent name) (hs : IsEntryName s)
    (hw : d.write (Path.join name s) content = .ok d') :
    d'.HasDir name ∧ DifferOnlyAt (d.cwd.place ++ [name]) d d' := by
  obtain ⟨⟨d₁, place⟩, -, -, ho, rfl⟩ := write_cases h.standing hw
  obtain ⟨hcwd, -⟩ := ho.leads
  obtain ⟨hproper, hrest⟩ := ho.keepsTo h hname hs
  obtain ⟨held, hkind⟩ := ho.kindAt_setContent content
  obtain rfl : place = d.cwd.place ++ [name] ++ [s] := ho.place_eq h hname hs.toIsComponent
  have hcwd' : (d₁.setContent (d.cwd.place ++ [name] ++ [s]) fun _ => content).cwd = d.cwd := hcwd
  refine ⟨⟨⟨?_, ?_⟩, ?_, ?_, fun t target => ?_⟩, hcwd'.symm, ?_⟩
  · rw [hcwd']
    exact h.standing.present
  · rw [hcwd', hkind, if_neg (by simp)]
    exact h.standing.isDir
  · refine hproper.after_modify fun x _ hx => ?_
    cases x with
    | file old mode => exact .file content mode
    | link target => exact hx
    | dir es => exact hx
  · rw [hcwd', hkind, if_neg (by simp)]
    exact h.isDir
  · rw [hcwd', hkind]
    split
    · simp
    · exact h.noLink t target
  · exact hrest.symm.trans (Node.remove_modify_below _ d₁.root d.cwd.place name [s]).symm

end Disk

namespace StandIn

variable {name s : String}

theorem writeText_keepsTo (hname : IsComponent name) (hs : IsEntryName s) (text : String) :
    (writeText (Path.join name s) text).KeepsTo name := by
  intro d m h
  cases hw : d.write (Path.join name s) (Text.Utf8.encode text.toList) with
  | ok d' =>
    rw [writeText_of_ok hw]
    exact write_keepsTo h hname hs hw
  | error e =>
    rw [writeText_of_error hw]
    exact ⟨h, .refl _ d⟩

theorem fail_keepsTo {α : Type} (name : String) (e : Failure) :
    (Action.fail e : Action Unit Failure α).KeepsTo name :=
  fun d _ h => ⟨h, .refl _ d⟩

private theorem serverKeystore_isEntryName : IsEntryName "server.jks" :=
  ⟨⟨by decide, by decide, by decide, by decide⟩, by decide, by decide⟩

private theorem certificate_isEntryName : IsEntryName "client.pem" :=
  ⟨⟨by decide, by decide, by decide, by decide⟩, by decide, by decide⟩

private theorem clientKeystore_isEntryName : IsEntryName "client.jks" :=
  ⟨⟨by decide, by decide, by decide, by decide⟩, by decide, by decide⟩

/-- A stand-in keeps to each directory, whichever step it fails at. -/
theorem tool_keepsTo (s : StandIn) (hname : IsComponent name) : s.tool.KeepsTo name where
  reports := by
    refine guarded_cases s _ (fail_keepsTo name) ?_
    split
    · exact fun d _ h => ⟨h, .refl _ d⟩
    · exact fun d _ h => ⟨h, .refl _ d⟩
  generates r hr := by
    refine guarded_cases s _ (fail_keepsTo name) ?_
    rw [hr]
    exact writeText_keepsTo hname serverKeystore_isEntryName _
  exports r hr := by
    refine guarded_cases s _ (fail_keepsTo name) ?_
    rw [hr]
    exact writeText_keepsTo hname certificate_isEntryName _
  imports r hr := by
    refine guarded_cases s _ (fail_keepsTo name) ?_
    rw [hr]
    exact writeText_keepsTo hname clientKeystore_isEntryName _

end StandIn

/-! ## Runs -/

namespace Provision

variable {τ : Type}

/-- A run sees of the disk what the reset leaves. -/
theorem run_congr {tool : KeyTool τ} {source : AddressSource τ} {config : Config}
    {secret : Secret} {host : String} {d₁ d₂ : Disk} {m : τ}
    (h : OutputDir.reset config.outDir d₁ = OutputDir.reset config.outDir d₂) :
    run tool source config secret host d₁ m = run tool source config secret host d₂ m := by
  simp only [run, bind, Action.bind, prepare, Action.onDisk, h]

/-- The calls to the tool that a run makes, in order. -/
def calls (tool : KeyTool τ) (source : AddressSource τ) (config : Config) (secret : Secret)
    (host : String) (d : Disk) (m : τ) : List ToolCall :=
  (run tool.recorded source.beside config secret host d ([], m)).memory.1

section Repetition

variable {tool : KeyTool τ} {source : AddressSource τ} {config : Config} {secret : Secret}
  {host : String} {d : Disk}

theorem perform_keepsTo (htool : tool.KeepsTo config.outDir)
    (hsource : source.KeepsTo config.outDir) {version : Option Version} {ip : Option Ipv4}
    {a : External} (ha : a ∈ (plan config secret host version ip).tail) :
    (a.perform tool source).KeepsTo config.outDir := by
  simp only [plan, commands, List.tail_cons, List.mem_append, List.mem_ite_nil_right,
    List.mem_cons, List.not_mem_nil, or_false] at ha
  rcases ha with ⟨-, rfl⟩ | ⟨-, rfl⟩ | rfl | rfl | rfl
  · exact htool.reports
  · exact hsource
  · exact htool.generates _ rfl
  · exact htool.exports _ rfl
  · exact htool.imports _ rfl

/-- A run with a tool that keeps to the output directory changes nothing else. -/
theorem run_keepsTo (htool : tool.KeepsTo config.outDir) (hsource : source.KeepsTo config.outDir)
    (hn : IsEntryName config.outDir) (h : d.ReadyFor config.outDir) (m : τ) :
    let o := run tool source config secret host d m
    o.disk.HasDir config.outDir ∧ DifferOnlyAt (d.cwd.place ++ [config.outDir]) d o.disk := by
  obtain ⟨ts, hplan, hledger⟩ := run_begins_with_reset tool source config secret host d m
  rw [OutputDir.reset_eq_ok h.standing (h.isRenewable hn)] at hledger
  -- What the reset leaves is such a disk, and each action keeps it one
  refine hledger.keeps (P := fun d' => d'.HasDir config.outDir ∧
    DifferOnlyAt (d.cwd.place ++ [config.outDir]) d d') ?_
    ⟨h.hasDir_renewed hn, differOnlyAt_renewed h.proper config.outDir⟩
  rintro t ht d' m' ⟨hdir, hdiffer⟩
  obtain ⟨version, ip, hmem⟩ := hplan.mem_plan_tail ht
  obtain ⟨hdir', hdiffer'⟩ := perform_keepsTo htool hsource hmem d' m' hdir
  rw [← hdiffer.cwd_eq] at hdiffer'
  exact ⟨hdir', hdiffer.trans hdiffer'⟩

end Repetition

/-- The runs on two disks that differ only in the entry of the output directory make the
    same calls, say the same to the log, end with the same value or failure and leave the
    same disk, whatever the tool and the source of the address make of the disk and of the
    calls before.  So a run on the disk that another one left does what the other one did, if
    the tool and the source changed nothing outside the output directory. -/
theorem run_forgets (tool : KeyTool τ) (source : AddressSource τ) (config : Config)
    (hname : IsComponent config.outDir) (secret : Secret) (host : String) (m : τ) :
    (∀ d₁ d₂ : Disk, d₁.ReadyFor config.outDir → d₂.ReadyFor config.outDir →
      DifferOnlyAt (d₁.cwd.place ++ [config.outDir]) d₁ d₂ →
      calls tool source config secret host d₁ m = calls tool source config secret host d₂ m ∧
      run tool source config secret host d₁ m = run tool source config secret host d₂ m) ∧
    (tool.KeepsTo config.outDir → source.KeepsTo config.outDir →
      ∀ d : Disk, d.ReadyFor config.outDir →
        let o := run tool source config secret host d m
        run tool source config secret host o.disk m = o) := by
  constructor
  · intro d₁ d₂ h₁ h₂ hdiffer
    have hreset := OutputDir.reset_congr h₁ h₂ hdiffer
    refine ⟨?_, run_congr hreset⟩
    rw [calls, calls, run_congr hreset]
  · intro htool hsource d h o
    by_cases hn : IsEntryName config.outDir
    · obtain ⟨hdir, hdiffer⟩ := run_keepsTo htool hsource hn h m
      exact run_congr (OutputDir.reset_congr h hdir.readyFor hdiffer).symm
    · -- No directory can have the name, and the run changes nothing
      obtain ⟨e, he⟩ := OutputDir.reset_eq_error h.standing hname fun hr => hn hr.fits
      have hrun : o = ⟨.error e, d, m, []⟩ := run_of_reset_error he
      rw [hrun]
      exact run_of_reset_error he

open OutputDir

private theorem linkedDisk_proper : linkedDisk.root.Proper := by
  have hvault : (Node.dir [("old.jks", .file [1] .data)]).Proper := by
    refine .dir (by decide) ?_ ?_ <;> rintro e (_ | ⟨_, ⟨⟩⟩)
    · exact ⟨⟨by decide, by decide, by decide, by decide⟩, by decide, by decide⟩
    · exact .file ..
  refine .dir (by decide) ?_ ?_ <;> rintro e (_ | ⟨_, _ | ⟨_, ⟨⟩⟩⟩)
  · exact keys_isEntryName
  · exact ⟨⟨by decide, by decide, by decide, by decide⟩, by decide, by decide⟩
  · exact .link ..
  · exact hvault

/-- A link to a directory elsewhere gives the run that an empty directory gives, and that the
    outcome gives. -/
theorem run_forgets_linked :
    let again (d : Disk) := run (StandIn.tool ⟨.known ⟨17, 0⟩, none⟩) (.fixed ⟨10, 0, 0, 7⟩)
      .standard ⟨"s"⟩ "h" d ()
    again linkedDisk = again (linkedDisk.renewed "keys") ∧
      again (again linkedDisk).disk = again linkedDisk := by
  have hready : linkedDisk.ReadyFor "keys" := ⟨linkedDisk_standing, linkedDisk_proper,
    .inr (.inr ⟨⟨"vault", rfl⟩, linkedDisk_not_enclosing⟩)⟩
  have hsource : (AddressSource.fixed ⟨10, 0, 0, 7⟩ : AddressSource Unit).KeepsTo "keys" :=
    fun d _ h => ⟨h, .refl _ d⟩
  have hforgets := run_forgets (StandIn.tool ⟨.known ⟨17, 0⟩, none⟩) (.fixed ⟨10, 0, 0, 7⟩)
    .standard keys_isEntryName.toIsComponent ⟨"s"⟩ "h" ()
  constructor
  · exact (hforgets.1 _ _ hready (hready.hasDir_renewed keys_isEntryName).readyFor
      (differOnlyAt_renewed linkedDisk_proper "keys")).2
  · exact hforgets.2 (StandIn.tool_keepsTo _ keys_isEntryName.toIsComponent) hsource _ hready

end Provision

end Keysmith
