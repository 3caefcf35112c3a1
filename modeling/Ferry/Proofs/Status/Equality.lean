import Ferry.Proofs.Status.Chronicle
import Mathlib.Data.List.Perm.Subperm

/-!
# Which statuses are alike

Statuses are compared one way: codes and messages must agree, the slots must be as many, and each
slot of the first must be matched by a slot of the second.  No status has two slots of one key, so
the second has no slots besides those that match, and the comparison comes to the same as looking
every key up in both.

Main statements: `alike_iff`, and `compares_of_reached`, what it comes to for statuses that scripts
lead to.

## Sections

1. Looking one way.
2. Looking both ways.
3. Statuses that scripts lead to.
-/

namespace Ferry

namespace Status

variable {a b c : Status}

/-! ## §1 Looking one way -/

theorem bytes?_eq_some_iff {key : String} {bytes : List UInt8} :
    a.bytes? key = some bytes ↔ ∃ payload, a.slot? key = some payload ∧ payload.bytes = bytes :=
  Option.map_eq_some_iff

theorem isSome_bytes?_iff (key : String) : (a.bytes? key).isSome = true ↔ key ∈ a.keys := by
  rw [bytes?, Option.isSome_map]
  exact KeyedList.find?_isSome_iff a.slots key

/-- Each slot is matched if what is found under a key is found in the other, too. -/
theorem slotsWithin_iff (ha : a.keys.Nodup) :
    slotsWithin a.slots.entries b.slots = true
      ↔ ∀ key bytes, a.bytes? key = some bytes → b.bytes? key = some bytes := by
  unfold slotsWithin
  rw [List.all_eq_true]
  constructor
  · intro hall key bytes hbytes
    obtain ⟨payload, hslot, rfl⟩ := bytes?_eq_some_iff.mp hbytes
    have hentry := hall (key, payload) ((KeyedList.mem_entries_iff ha).mpr hslot)
    refine bytes?_eq_some_iff.mpr ?_
    show ∃ other, b.slots.find? key = some other ∧ _
    cases hother : b.slots.find? key with
    | none => simp [hother] at hentry
    | some other =>
      simp only [hother, Payload.alike_iff] at hentry
      exact ⟨other, rfl, hentry.symm⟩
  · rintro hwithin ⟨key, payload⟩ hmem
    have hslot : a.slot? key = some payload := (KeyedList.mem_entries_iff ha).mp hmem
    obtain ⟨other, hother, hbytes⟩ := bytes?_eq_some_iff.mp
      (hwithin key payload.bytes (bytes?_eq_some_iff.mpr ⟨payload, hslot, rfl⟩))
    have hfind : b.slots.find? key = some other := hother
    simp only [hfind, Payload.alike_iff]
    exact hbytes.symm

/-- If the slots are as many, those that match are all of them. -/
theorem keys_perm_of_within (ha : a.keys.Nodup) (hsize : a.slots.size = b.slots.size)
    (hwithin : ∀ key bytes, a.bytes? key = some bytes → b.bytes? key = some bytes) :
    a.keys.Perm b.keys := by
  have hsubset : a.keys ⊆ b.keys := by
    intro key hkey
    obtain ⟨bytes, hbytes⟩ := Option.isSome_iff_exists.mp ((isSome_bytes?_iff key).mpr hkey)
    exact (isSome_bytes?_iff key).mp (Option.isSome_of_eq_some (hwithin key bytes hbytes))
  -- No key stands twice in the row, so as many keys as there are in the other are all of them.
  refine (List.subperm_of_subset ha hsubset).perm_of_length_le ?_
  show (b.slots.entries.map Prod.fst).length ≤ (a.slots.entries.map Prod.fst).length
  rw [List.length_map, List.length_map]
  exact Nat.le_of_eq hsize.symm

/-! ## §2 Looking both ways -/

/-- Statuses are alike if they agree in code, message and the bytes under every key. -/
theorem alike_iff (ha : a.keys.Nodup) (hb : b.keys.Nodup) :
    a.alike b = true
      ↔ a.code = b.code ∧ a.message = b.message ∧ ∀ key, a.bytes? key = b.bytes? key := by
  simp only [alike, Bool.and_eq_true, beq_iff_eq, and_assoc, slotsWithin_iff ha]
  refine and_congr_right fun _ => and_congr_right fun _ => ?_
  constructor
  · rintro ⟨hsize, hwithin⟩ key
    have hperm := keys_perm_of_within ha hsize hwithin
    cases hbytes : a.bytes? key with
    | some bytes => exact (hwithin key bytes hbytes).symm
    -- A key that the first does not have is not among the matched ones.
    | none =>
      refine (Option.not_isSome_iff_eq_none.mp fun hsome => ?_).symm
      have hkey : key ∈ a.keys := hperm.mem_iff.mpr ((isSome_bytes?_iff key).mp hsome)
      rw [← isSome_bytes?_iff, hbytes] at hkey
      cases hkey
  · intro hsame
    have hperm : a.keys.Perm b.keys := by
      refine (List.perm_ext_iff_of_nodup ha hb).mpr fun key => ?_
      rw [← isSome_bytes?_iff, ← isSome_bytes?_iff, hsame]
    refine ⟨?_, fun key bytes hbytes => (hsame key).symm.trans hbytes⟩
    have hlength := hperm.length_eq
    unfold keys KeyedList.keys at hlength
    rwa [List.length_map, List.length_map] at hlength

theorem alike_symm (ha : a.keys.Nodup) (hb : b.keys.Nodup) : a.alike b = b.alike a := by
  rw [Bool.eq_iff_iff, alike_iff ha hb, alike_iff hb ha]
  constructor
  all_goals
    rintro ⟨hcode, hmessage, hbytes⟩
    exact ⟨hcode.symm, hmessage.symm, fun key => (hbytes key).symm⟩

/-- The order of the slots does not matter. -/
theorem bytes?_of_perm {other : Status} (ha : a.keys.Nodup)
    (hperm : other.slots.entries.Perm a.slots.entries) (key : String) :
    a.bytes? key = other.bytes? key := by
  have hother : other.keys.Nodup := (hperm.map Prod.fst).nodup_iff.mpr ha
  refine congrArg (Option.map Payload.bytes) (Option.ext fun payload => ?_)
  show a.slots.find? key = some payload ↔ other.slots.find? key = some payload
  rw [← KeyedList.mem_entries_iff ha, ← KeyedList.mem_entries_iff hother, hperm.mem_iff]

/-- A snapshot has the slots of the original, without the owners. -/
theorem Formed.snapshot_eq (hformed : a.Formed) :
    a.snapshot = { a with slots := a.slots.map Payload.detached } := by
  -- It is built anew, slot by slot, and the keys are still told apart.
  have hrow : a.snapshot = (a.slots.map Payload.detached).entries.foldl
      (fun made entry => made.setSlot entry.1 entry.2) (Status.new a.code a.message) := by
    unfold snapshot allBytes KeyedList.map
    rw [List.foldl_map, List.foldl_map]
    rfl
  have hkeys : (a.slots.map Payload.detached).keys.Nodup := by
    rw [KeyedList.keys_map]
    exact hformed.keys_nodup
  have hmessage : keptMessage a.code a.message = a.message := by
    unfold keptMessage
    split
    · next hok => exact (hformed.message_eq hok).symm
    · rfl
  rw [hrow, foldl_setSlot, Status.new, hmessage, KeyedList.foldl_insert_entries hkeys]

/-- Which statuses a status is alike, in the company of two others. -/
structure Compares (a b c : Status) : Prop where
  /-- Code, message and the bytes under every key decide. -/
  alike_iff : a.alike b = true
    ↔ a.code = b.code ∧ a.message = b.message ∧ ∀ key, a.bytes? key = b.bytes? key
  refl : a.alike a = true
  symm : a.alike b = b.alike a
  trans : a.alike b = true → b.alike c = true → a.alike c = true
  /-- The slots may stand in any order. -/
  permuted : ∀ other : Status, other.code = a.code → other.message = a.message →
    other.slots.entries.Perm a.slots.entries → a.alike other = true ∧ other.alike a = true
  /-- Their owners do not matter. -/
  snapshot : a.alike a.snapshot = true ∧ a.snapshot.alike a = true ∧ a.snapshot.owners = []

theorem Formed.compares (ha : a.Formed) (hb : b.Formed) (hc : c.Formed) : a.Compares b c := by
  have hiff := fun {x y : Status} (hx : x.Formed) (hy : y.Formed) =>
    alike_iff hx.keys_nodup hy.keys_nodup
  have hrefl : ∀ {x : Status}, x.Formed → x.alike x = true :=
    fun hx => (hiff hx hx).mpr ⟨rfl, rfl, fun _ => rfl⟩
  refine
    { alike_iff := hiff ha hb
      refl := hrefl ha
      symm := alike_symm ha.keys_nodup hb.keys_nodup
      trans := fun hab hbc => ?_
      permuted := fun other hcode hmessage hperm => ?_
      snapshot := ?_ }
  · obtain ⟨hcode, hmessage, hbytes⟩ := (hiff ha hb).mp hab
    obtain ⟨hcode', hmessage', hbytes'⟩ := (hiff hb hc).mp hbc
    exact (hiff ha hc).mpr ⟨hcode.trans hcode', hmessage.trans hmessage',
      fun key => (hbytes key).trans (hbytes' key)⟩
  · have hother : other.keys.Nodup := (hperm.map Prod.fst).nodup_iff.mpr ha.keys_nodup
    have halike : a.alike other = true := (Status.alike_iff ha.keys_nodup hother).mpr
      ⟨hcode.symm, hmessage.symm, bytes?_of_perm ha.keys_nodup hperm⟩
    exact ⟨halike, (alike_symm ha.keys_nodup hother).symm.trans halike⟩
  · have hsnapshot := formed_snapshot a
    have halike : a.alike a.snapshot = true := by
      refine (hiff ha hsnapshot).mpr ?_
      rw [ha.snapshot_eq]
      refine ⟨rfl, rfl, fun key => ?_⟩
      show _ = ((a.slots.map Payload.detached).find? key).map Payload.bytes
      rw [KeyedList.find?_map, Option.map_map]
      rfl
    refine ⟨halike, (alike_symm ha.keys_nodup hsnapshot.keys_nodup).symm.trans halike, ?_⟩
    rw [ha.snapshot_eq]
    simp [owners, payloads, KeyedList.values, KeyedList.map, List.filterMap_map]

end Status

namespace Script.Session

/-! ## §3 Statuses that scripts lead to -/

/-- A script leads to a session in which a variable holds the status. -/
def Reached (status : Status) : Prop :=
  ∃ identities bridges commands name,
    ((start identities bridges).after commands).statuses.find? name = some status

theorem Reached.formed {status : Status} (hreached : Reached status) : status.Formed := by
  obtain ⟨identities, bridges, commands, name, hfind⟩ := hreached
  exact (formed_after identities bridges commands).of_find? hfind

/-- A command binds a variable to a status that is alike another, whichever is compared with
which. -/
def Copies (s : Session) (command : Command) (target : String) (status : Status) : Prop :=
  ∃ copy, (command.run s).1.statuses.find? target = some copy ∧
    status.alike copy = true ∧ copy.alike status = true

variable {s : Session} {status : Status} {name : String}

/-- Binding a copy that was made from a variable. -/
theorem find?_showAndBind (s : Session) (target : String) (made : Holdings × Status) :
    (s.showAndBind target made).1.statuses.find? target = some made.2 :=
  KeyedList.find?_insert_self _ _ _

theorem copies_clone (hfind : s.statuses.find? name = some status)
    (hrefl : status.alike status = true) (target : String) :
    s.Copies (.status (.clone name target)) target status := by
  refine ⟨status, ?_, hrefl, hrefl⟩
  simp only [Command.run, StatusCommand.run, onStatus, given, hfind]
  exact find?_showAndBind s target _

theorem copies_snapshot (hfind : s.statuses.find? name = some status)
    (hsnapshot : status.alike status.snapshot = true ∧ status.snapshot.alike status = true)
    (target : String) : s.Copies (.status (.snapshot name target)) target status := by
  refine ⟨status.snapshot, ?_, hsnapshot⟩
  simp only [Command.run, StatusCommand.run, onStatus, given, hfind]
  exact find?_showAndBind s target _

/-- Comparing statuses that scripts lead to is an equivalence: they are alike if they agree in code,
message and the bytes under every key.  Clones and snapshots are alike the original. -/
theorem compares_of_reached {a b c : Status} (ha : Reached a) (hb : Reached b) (hc : Reached c) :
    a.Compares b c ∧
      (∀ (s : Session) name target, s.statuses.find? name = some a →
        s.Copies (.status (.clone name target)) target a ∧
          s.Copies (.status (.snapshot name target)) target a) ∧
      ∀ (s : Session) name other, s.statuses.find? name = some a →
        s.statuses.find? other = some b →
          ((Command.status (.alike name other)).run s).2 = .answer (.flag (a.alike b)) := by
  have hcompares := ha.formed.compares hb.formed hc.formed
  refine ⟨hcompares, fun s name target hfind => ⟨?_, ?_⟩, fun s name other hname hother => ?_⟩
  · exact copies_clone hfind hcompares.refl target
  · exact copies_snapshot hfind ⟨hcompares.snapshot.1, hcompares.snapshot.2.1⟩ target
  · simp only [Command.run, StatusCommand.run, onStatus, given, hname, hother]

/-- Two statuses get the same payloads in different orders, and one of the payloads has an owner;
a third is a snapshot of the first, which then gets another message. -/
def shuffled : List Command :=
  [.object (.new "o" (.number 5)),
    .object (.mint "o" "p" 0),
    .status (.new "a" .aborted "m"),
    .status (.setPayload "a" "x" "p"),
    .status (.setBytes "a" "y" [2]),
    .status (.new "b" .aborted "m"),
    .status (.setBytes "b" "y" [2]),
    .status (.setPayload "b" "x" "p"),
    .status (.snapshot "a" "c")]

/-- The status with the owned payload in front. -/
def ownedFirst : Status :=
  { code := .aborted, message := "m"
    slots := ⟨[("x", { bytes := Token.encode ⟨7, 0, 1⟩, owner := some ⟨0⟩ }),
      ("y", .ofBytes [2])]⟩ }

/-- The same slots in another order. -/
def ownedLast : Status :=
  { ownedFirst with slots := ⟨ownedFirst.slots.entries.reverse⟩ }

/-- All three are alike. -/
theorem compares_of_reached_shuffled :
    Reached ownedFirst ∧ Reached ownedLast ∧ Reached ownedFirst.snapshot ∧
      ownedFirst.alike ownedLast = true ∧ ownedLast.alike ownedFirst.snapshot = true := by
  have ha : Reached ownedFirst := ⟨[7], [], shuffled, "a", by decide +kernel⟩
  have hb : Reached ownedLast := ⟨[7], [], shuffled, "b", by decide +kernel⟩
  have hc : Reached ownedFirst.snapshot := ⟨[7], [], shuffled, "c", by decide +kernel⟩
  have hfirst := (compares_of_reached ha hb hc).1
  have hlast := (compares_of_reached hb ha hc).1
  have hpermuted := hfirst.permuted ownedLast rfl rfl (List.reverse_perm _)
  exact ⟨ha, hb, hc, hpermuted.1, hlast.trans hpermuted.2 hfirst.snapshot.1⟩

end Script.Session

end Ferry
