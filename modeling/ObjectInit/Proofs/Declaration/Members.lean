import Mathlib.Data.List.Nodup
import ObjectInit.Proofs.Declaration.Growth

/-! # The members of a class

Members are numbered in the order of their declaration, and a class lists the numbers of its own
members and no others, each one once, in increasing order.
-/

namespace ObjectInit.DeclarationTable

variable {t t' : DeclarationTable}

def memberIds (t : DeclarationTable) (frame : Frame) : List MemberId := t.listed (·.members) frame

theorem membersOf_eq (t : DeclarationTable) (frame : Frame) :
    t.membersOf frame = (t.memberIds frame).filterMap t.member? := by
  unfold membersOf memberIds listed
  cases t.class? frame <;> rfl

theorem Accepts.members_cases (h : t.Accepts t') :
    (t'.members = t.members ∧ ∀ frame, t'.memberIds frame = t.memberIds frame) ∨
      ∃ d : MemberDecl, d.id = ⟨t.members.size⟩ ∧ t'.members = t.members.push d ∧
        ∀ frame, t'.memberIds frame = if frame = d.owner
          then t.memberIds frame ++ [d.id] else t.memberIds frame := by
  cases h with
  | newClass _ _ _ fresh => exact .inl ⟨rfl, listed_insert_of_fresh fresh rfl⟩
  | newSite _ declared => exact .inl ⟨rfl, listed_insert_of_declared declared rfl⟩
  | newField _ declared => exact .inl ⟨rfl, listed_insert_of_declared declared rfl⟩
  | newMember _ _ _ declared => exact .inr ⟨_, rfl, rfl, listed_insert_append declared rfl⟩
  | newLocation _ _ => exact .inl ⟨rfl, fun _ => rfl⟩

/-! ## Numbers -/

theorem member?_congr (same : t'.members = t.members) : t'.member? = t.member? := by
  unfold member?
  rw [same]

theorem member?_of_push {d : MemberDecl} (pushed : t'.members = t.members.push d)
    (m : MemberId) : t'.member? m = if m = ⟨t.members.size⟩ then some d else t.member? m := by
  have hindex : m.index = t.members.size ↔ m = ⟨t.members.size⟩ := by
    cases m
    simp
  unfold member?
  rw [pushed, Array.getElem?_push]
  simp only [hindex]

theorem index_lt_of_member? {m : MemberId} {d : MemberDecl} (declared : t.member? m = some d) :
    m.index < t.members.size := (Array.getElem?_eq_some_iff.mp declared).1

theorem member?_of_push_of_declared {d e : MemberDecl} (pushed : t'.members = t.members.push d)
    {m : MemberId} (declared : t.member? m = some e) : t'.member? m = some e := by
  have old : m ≠ ⟨t.members.size⟩ := by
    intro same
    exact absurd (index_lt_of_member? declared) (by simp [same])
  rw [member?_of_push pushed, if_neg old, declared]

/-- A class lists exactly the members that it owns, in the order of their numbers. -/
structure MembersListed (t : DeclarationTable) : Prop where
  mem_memberIds_iff {frame : Frame} {m : MemberId} :
    m ∈ t.memberIds frame ↔ ∃ d, t.member? m = some d ∧ d.owner = frame
  increasing (frame : Frame) : (t.memberIds frame).Pairwise fun m m' => m.index < m'.index

theorem MembersListed.step (ht : t.MembersListed) (h : t.Accepts t') : t'.MembersListed := by
  obtain ⟨hmembers, hids⟩ | ⟨d, hid, pushed, hids⟩ := h.members_cases
  · have hmember : t'.member? = t.member? := member?_congr hmembers
    refine ⟨?_, ?_⟩
    · intro frame m
      rw [hids, hmember]
      exact ht.mem_memberIds_iff
    · intro frame
      rw [hids]
      exact ht.increasing frame
  · -- No number that is listed already reaches that of the new member.
    have below : ∀ {frame : Frame} {m : MemberId}, m ∈ t.memberIds frame →
        m.index < t.members.size := by
      intro frame m hm
      obtain ⟨e, he, -⟩ := ht.mem_memberIds_iff.mp hm
      exact index_lt_of_member? he
    have unlisted : ∀ frame, ⟨t.members.size⟩ ∉ t.memberIds frame := fun frame hm =>
      absurd (below hm) (Nat.lt_irrefl _)
    refine ⟨?_, ?_⟩
    · intro frame m
      have hmem : m ∈ t'.memberIds frame ↔
          m ∈ t.memberIds frame ∨ m = ⟨t.members.size⟩ ∧ d.owner = frame := by
        rw [hids, hid]
        split
        · rename_i own
          simp [own]
        · rename_i other
          simp [Ne.symm other]
      rw [hmem, member?_of_push pushed]
      by_cases new : m = ⟨t.members.size⟩
      · simp [new, unlisted]
      · simp [new, ht.mem_memberIds_iff]
    · intro frame
      rw [hids, hid]
      split
      · refine List.pairwise_append.mpr ⟨ht.increasing frame, List.pairwise_singleton _ _, ?_⟩
        intro m hm m' hm'
        rw [List.mem_singleton.mp hm']
        exact below hm
      · exact ht.increasing frame

theorem MembersListed.empty : MembersListed ∅ where
  mem_memberIds_iff {frame m} := by
    constructor
    · intro h
      cases h
    · intro ⟨d, h, _⟩
      cases h
  increasing _ := .nil

theorem Reachable.membersListed (hr : t.Reachable) : t.MembersListed :=
  hr.invariant .empty fun _ _ => MembersListed.step

/-! ## Declarations -/

theorem Reachable.mem_membersOf_iff (hr : t.Reachable) {frame : Frame} {d : MemberDecl} :
    d ∈ t.membersOf frame ↔ t.member? d.id = some d ∧ d.owner = frame := by
  rw [membersOf_eq, List.mem_filterMap]
  constructor
  · intro ⟨m, hm, hd⟩
    obtain ⟨e, he, howner⟩ := hr.membersListed.mem_memberIds_iff.mp hm
    obtain rfl : e = d := Option.some.inj (he.symm.trans hd)
    rw [(hr.membersPlaced m e he).1]
    exact ⟨he, howner⟩
  · intro ⟨hd, howner⟩
    exact ⟨d.id, hr.membersListed.mem_memberIds_iff.mpr ⟨d, hd, howner⟩, hd⟩

theorem Reachable.nodup_membersOf (hr : t.Reachable) (frame : Frame) :
    (t.membersOf frame).Nodup := by
  have distinct : (t.memberIds frame).Nodup := (hr.membersListed.increasing frame).imp
    fun hlt same => absurd hlt (by simp [same])
  rw [membersOf_eq]
  refine distinct.filterMap ?_
  intro m m' d hm hm'
  rw [← (hr.membersPlaced m d hm).1, (hr.membersPlaced m' d hm').1]

theorem MembersListed.membersOf_of_push (ht : t.MembersListed) {d : MemberDecl}
    (new : d.id = ⟨t.members.size⟩) (pushed : t'.members = t.members.push d)
    (ids : ∀ frame, t'.memberIds frame = if frame = d.owner
      then t.memberIds frame ++ [d.id] else t.memberIds frame) (frame : Frame) :
    t'.membersOf frame =
      if frame = d.owner then t.membersOf frame ++ [d] else t.membersOf frame := by
  have old : (t.memberIds frame).filterMap t'.member? = t.membersOf frame := by
    rw [membersOf_eq]
    apply List.filterMap_congr
    intro m hm
    obtain ⟨e, he, -⟩ := ht.mem_memberIds_iff.mp hm
    exact (member?_of_push_of_declared pushed he).trans he.symm
  have last : t'.member? d.id = some d := by rw [member?_of_push pushed, if_pos new]
  rw [membersOf_eq, ids]
  split
  · rw [List.filterMap_append, old, List.filterMap_cons_some last, List.filterMap_nil]
  · exact old

/-- At a free place a member of a declared class can be declared. Its class then lists one more
member, while all fields and the members of other classes stay as they were. -/
theorem Reachable.declareMember_at_free (hr : t.Reachable) {owner : Frame} {location : Location}
    {c : ClassDecl} (kind : MemberKind) (receiver : Option Qualifier)
    (free : t.memberAt.get? location = none) (declared : t.class? owner = some c) :
    ∃ d t', d = ⟨⟨t.members.size⟩, owner, kind, location, receiver⟩ ∧
      t.declareMember owner kind location receiver = (.ok d.id, t') ∧ t'.Reachable ∧
      t'.member? d.id = some d ∧ (∀ frame, t'.fieldsOf frame = t.fieldsOf frame) ∧
      ∀ frame, t'.membersOf frame =
        if frame = owner then t.membersOf frame ++ [d] else t.membersOf frame := by
  let d : MemberDecl := ⟨⟨t.members.size⟩, owner, kind, location, receiver⟩
  let t' : DeclarationTable := { t with
    classes := t.classes.insert owner { c with members := c.members ++ [d.id] }
    members := t.members.push d
    memberAt := t.memberAt.insert location d.id }
  have hdeclare : t.declareMember owner kind location receiver = (.ok d.id, t') := by
    unfold class? at declared
    simp only [DeclarationTable.declareMember, free, declared, d, t']
  have reachable : t'.Reachable := by
    have hnext := hr.declareMember owner kind location receiver
    rwa [hdeclare] at hnext
  have hmember : t'.member? d.id = some d := (member?_of_push rfl d.id).trans (if_pos rfl)
  have hfieldIds : ∀ frame, t'.fieldIds frame = t.fieldIds frame :=
    listed_insert_of_declared declared rfl
  have hmemberIds : ∀ frame, t'.memberIds frame =
      if frame = d.owner then t.memberIds frame ++ [d.id] else t.memberIds frame :=
    listed_insert_append declared rfl
  refine ⟨d, t', rfl, hdeclare, reachable, hmember, ?_, ?_⟩
  · intro frame
    rw [fieldsOf_eq, fieldsOf_eq, hfieldIds]
    rfl
  · exact hr.membersListed.membersOf_of_push rfl rfl hmemberIds

end ObjectInit.DeclarationTable
