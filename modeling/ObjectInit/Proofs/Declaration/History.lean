import ObjectInit.Proofs.Declaration.Consistency

/-! # The history of a table

Members are those whose declarations were accepted, in that order; a place lies in a member exactly
if some accepted request said so; and a class is created where the last one put it.
-/

namespace ObjectInit.DeclarationTable

variable {t t' : DeclarationTable}

/-! ## What a request tells -/

namespace Request

def fields : Request → List FieldDecl
  | declareField field => [field]
  | declareClass .. | setEnclosingSite .. | declareMember .. | registerLocation .. => []

/-- The member that a request declares, with the number that it would be given. -/
def members (next : MemberId) : Request → List MemberDecl
  | declareMember owner kind location receiver => [⟨next, owner, kind, location, receiver⟩]
  | declareClass .. | setEnclosingSite .. | declareField .. | registerLocation .. => []

/-- The place that a request puts into a member: a member lies where it is declared. -/
def places (next : MemberId) : Request → List (Location × MemberId)
  | declareMember _ _ location _ => [(location, next)]
  | registerLocation location id => [(location, id)]
  | declareClass .. | setEnclosingSite .. | declareField .. => []

def sites : Request → List (Frame × EnclosingSite)
  | setEnclosingSite inner site => [(inner, site)]
  | declareClass .. | declareField .. | declareMember .. | registerLocation .. => []

end Request

/-- The site that was told last of a class. -/
def lastSite (sites : List (Frame × EnclosingSite)) (frame : Frame) : Option EnclosingSite :=
  (sites.filter (·.1 = frame)).getLast?.map (·.2)

theorem lastSite_append (sites new : List (Frame × EnclosingSite)) (frame : Frame) :
    lastSite (sites ++ new) frame = (lastSite new frame).or (lastSite sites frame) := by
  unfold lastSite
  rw [List.filter_append, List.getLast?_append, Option.map_or]

/-! ## One request -/

structure Adds (t : DeclarationTable) (r : Request) (t' : DeclarationTable) : Prop where
  members_eq : t'.members.toList = t.members.toList ++ r.members ⟨t.members.size⟩
  memberAt_iff {l : Location} {m : MemberId} : t'.memberAt.get? l = some m ↔
    t.memberAt.get? l = some m ∨ (l, m) ∈ r.places ⟨t.members.size⟩
  site?_eq (frame : Frame) : t'.site? frame = (lastSite r.sites frame).or (t.site? frame)

theorem memberAt_iff_of_insert {l : Location} {m : MemberId}
    (free : t.memberAt.get? l = none) (inserted : t'.memberAt = t.memberAt.insert l m)
    {l' : Location} {m' : MemberId} :
    t'.memberAt.get? l' = some m' ↔ t.memberAt.get? l' = some m' ∨ (l', m') ∈ [(l, m)] := by
  rw [inserted]
  by_cases here : l' = l
  · rw [here, FiniteMap.get?_insert_self, free]
    simp [eq_comm]
  · rw [FiniteMap.get?_insert_of_ne here]
    simp [here]

theorem respond_adds (t : DeclarationTable) (r : Request) :
    (∃ e, t.respond r = (.error e, t)) ∨ ∃ t', t.respond r = (.ok (), t') ∧ t.Adds r t' := by
  cases r with
  | declareClass frame name location isFinal =>
      rcases t.declareClass_cases frame name location isFinal with refused | ⟨fresh, accepted⟩
      · exact .inl refused
      · refine .inr ⟨_, accepted, (List.append_nil _).symm, by simp [Request.places], ?_⟩
        exact site?_of_insert_same rfl (by rw [fresh]; rfl)
  | setEnclosingSite inner site =>
      rcases t.setEnclosingSite_cases inner site with refused | ⟨m, c, -, declared, accepted⟩
      · exact .inl refused
      · refine .inr ⟨_, accepted, (List.append_nil _).symm, by simp [Request.places], ?_⟩
        intro frame
        rw [site?_of_insert rfl]
        by_cases named : frame = inner
        · simp [named, lastSite, Request.sites]
        · simp [named, Ne.symm named, lastSite, Request.sites]
  | declareField field =>
      rcases t.declareField_cases field with ⟨e, refused⟩ | ⟨c, -, declared, accepted⟩
      · exact .inl ⟨e, by rw [respond, refused]; rfl⟩
      · have adds : t.Adds (.declareField field) (t.declareField field).2 := by
          rw [accepted]
          refine ⟨(List.append_nil _).symm, by simp [Request.places], ?_⟩
          exact site?_of_insert_same rfl (by rw [declared]; rfl)
        exact .inr ⟨_, by rw [respond, accepted]; rfl, adds⟩
  | declareMember owner kind location receiver =>
      rcases t.declareMember_cases owner kind location receiver with
        ⟨e, refused⟩ | ⟨c, free, declared, accepted⟩
      · exact .inl ⟨e, by rw [respond, refused]; rfl⟩
      · have adds : t.Adds (.declareMember owner kind location receiver)
            (t.declareMember owner kind location receiver).2 := by
          rw [accepted]
          refine ⟨Array.toList_push, memberAt_iff_of_insert free rfl, ?_⟩
          exact site?_of_insert_same rfl (by rw [declared]; rfl)
        exact .inr ⟨_, by rw [respond, accepted]; rfl, adds⟩
  | registerLocation location id =>
      rcases t.registerLocation_cases location id with
        refused | ⟨inside, known⟩ | ⟨d, -, free, accepted⟩
      · exact .inl refused
      · refine .inr ⟨t, known, (List.append_nil _).symm, ?_, fun _ => rfl⟩
        intro l m
        refine (or_iff_left_of_imp fun again => ?_).symm
        obtain ⟨rfl, rfl⟩ := Prod.mk.inj (List.mem_singleton.mp again)
        exact inside
      · exact .inr ⟨_, accepted, (List.append_nil _).symm, memberAt_iff_of_insert free rfl,
          fun _ => rfl⟩

/-! ## All requests -/

/-- What several requests tell of some kind, without those that are refused. -/
def told {α : Type} (part : MemberId → Request → List α) (t : DeclarationTable) :
    List Request → List α
  | [] => []
  | r :: requests =>
    match t.respond r with
    | (.ok _, t') => part ⟨t.members.size⟩ r ++ told part t' requests
    | (.error _, t') => told part t' requests

theorem told_cons_of_refused {α : Type} {part : MemberId → Request → List α} {r : Request}
    {e : DeclarationError} (refused : t.respond r = (.error e, t)) (requests : List Request) :
    told part t (r :: requests) = told part t requests := by
  rw [told, refused]

theorem told_cons_of_accepted {α : Type} {part : MemberId → Request → List α} {r : Request}
    (accepted : t.respond r = (.ok (), t')) (requests : List Request) :
    told part t (r :: requests) = part ⟨t.members.size⟩ r ++ told part t' requests := by
  rw [told, accepted]

theorem newFields_eq (t : DeclarationTable) (r : Request) :
    t.newFields r = match (t.respond r).1 with
      | .ok _ => r.fields
      | .error _ => [] := by
  cases r with
  | declareField field =>
      rcases t.declareField_cases field with ⟨e, refused⟩ | ⟨c, -, -, accepted⟩
      · simp only [newFields, respond, refused]
        rfl
      · simp only [newFields, respond, accepted]
        rfl
  | declareClass | setEnclosingSite | declareMember | registerLocation =>
      simp only [newFields, Request.fields]
      split <;> rfl

theorem fieldsDeclared_eq_told (t : DeclarationTable) (requests : List Request) :
    t.fieldsDeclared requests = told (fun _ r => r.fields) t requests := by
  induction requests generalizing t with
  | nil => rfl
  | cons r requests ih =>
      rw [fieldsDeclared, newFields_eq]
      rcases t.respond_cases r with ⟨e, refused⟩ | ⟨t', accepted, -⟩
      · rw [told_cons_of_refused refused, refused]
        exact ih t
      · rw [told_cons_of_accepted accepted, accepted]
        exact congrArg _ (ih t')

structure Follows (t : DeclarationTable) (members : List MemberDecl)
    (places : List (Location × MemberId)) (sites : List (Frame × EnclosingSite)) : Prop where
  members_eq : t.members.toList = members
  memberAt_iff {l : Location} {m : MemberId} : t.memberAt.get? l = some m ↔ (l, m) ∈ places
  site?_eq (frame : Frame) : t.site? frame = lastSite sites frame

variable {members : List MemberDecl} {places : List (Location × MemberId)}
  {sites : List (Frame × EnclosingSite)}

theorem Follows.empty : Follows ∅ [] [] [] where
  members_eq := rfl
  memberAt_iff {l m} := by
    constructor
    · intro h
      cases h
    · intro h
      cases h
  site?_eq _ := rfl

theorem Follows.adds {r : Request} (follows : t.Follows members places sites)
    (adds : t.Adds r t') :
    t'.Follows (members ++ r.members ⟨t.members.size⟩) (places ++ r.places ⟨t.members.size⟩)
      (sites ++ r.sites) where
  members_eq := by rw [adds.members_eq, follows.members_eq]
  memberAt_iff {l m} := by rw [adds.memberAt_iff, follows.memberAt_iff, List.mem_append]
  site?_eq frame := by rw [adds.site?_eq, follows.site?_eq, lastSite_append]

theorem Follows.respondAll (follows : t.Follows members places sites) (requests : List Request) :
    (t.respondAll requests).Follows (members ++ told Request.members t requests)
      (places ++ told Request.places t requests)
      (sites ++ told (fun _ r => r.sites) t requests) := by
  induction requests generalizing t members places sites with
  | nil =>
      simp only [told, List.append_nil]
      exact follows
  | cons r requests ih =>
      rcases t.respond_adds r with ⟨e, refused⟩ | ⟨t', accepted, adds⟩
      · have same : t.respondAll (r :: requests) = t.respondAll requests :=
          congrArg (·.2.respondAll requests) refused
        simp only [told_cons_of_refused refused, same]
        exact ih follows
      · have next : t.respondAll (r :: requests) = t'.respondAll requests :=
          congrArg (·.2.respondAll requests) accepted
        simp only [told_cons_of_accepted accepted, next, ← List.append_assoc]
        exact ih (follows.adds adds)

/-- Whatever requests lead to it, a table has the members that were declared, in order, with their
places and the sites that were told; what was refused is not among them. -/
theorem collect_follows (requests : List Request) :
    (collect requests).Follows (told Request.members ∅ requests)
      (told Request.places ∅ requests) (told (fun _ r => r.sites) ∅ requests) :=
  Follows.empty.respondAll requests

example : told Request.places ∅ [.declareClass ⟨1⟩ ⟨1⟩ ⟨1⟩ false,
    .declareMember ⟨1⟩ .constructor ⟨3⟩ none, .declareMember ⟨1⟩ .method ⟨3⟩ none,
    .registerLocation ⟨4⟩ ⟨0⟩, .registerLocation ⟨4⟩ ⟨1⟩] =
      [(⟨3⟩, ⟨0⟩), (⟨4⟩, ⟨0⟩)] := by
  decide +kernel

theorem membersOf_collect (requests : List Request) (frame : Frame) :
    (collect requests).membersOf frame =
      (told Request.members ∅ requests).filter (·.owner = frame) := by
  have hr : (collect requests).Reachable := reachable_iff.mpr ⟨requests, rfl⟩
  rw [hr.membersOf_eq_filter, (collect_follows requests).members_eq]

end ObjectInit.DeclarationTable
