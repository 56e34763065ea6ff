import Mathlib.Data.List.Basic
import SiteVisit.Mapping.Eval

namespace SiteVisit

variable {α κ : Type} [BEq κ] {key : α → κ}

section Recursion

variable {k : κ} {members : List α} {groups : List (κ × List α)} {a : α}

def joinGroup (key : α → κ) (groups : List (κ × List α)) (item : α) : List (κ × List α) :=
  if groups.any (·.1 == key item) then
    groups.map fun (k, members) => (k, if k == key item then members ++ [item] else members)
  else groups ++ [(key item, [item])]

theorem joinGroup_cons_of_not_beq (h : (k == key a) = false) :
    joinGroup key ((k, members) :: groups) a = (k, members) :: joinGroup key groups a := by
  rw [joinGroup, joinGroup, List.any_cons, h, Bool.false_or]
  split
  · simp only [List.map_cons, h, Bool.false_eq_true, if_false]
  · rw [List.cons_append]

theorem forall_mem_joinGroup (h : (key a == k) = false)
    (hgroups : ∀ g ∈ groups, (g.1 == k) = false) :
    ∀ g ∈ joinGroup key groups a, (g.1 == k) = false := by
  rw [joinGroup]
  split
  · exact List.forall_mem_map.mpr hgroups
  · exact List.forall_mem_append.mpr ⟨hgroups, List.forall_mem_singleton.mpr h⟩

/-- What holds of no items, and of some if it holds of those among them that do not have the key of
the first one, holds of all. -/
@[elab_as_elim]
theorem groupBy_induction (key : α → κ) {P : List α → Prop} (nil : P [])
    (cons : ∀ a rest, P (rest.filter (!key · == key a)) → P (a :: rest)) (items : List α) :
    P items := by
  induction hn : items.length using Nat.strongRecOn generalizing items with
  | _ n ih =>
    cases items with
    | nil => exact nil
    | cons a rest =>
      refine cons a rest (ih _ ?_ _ rfl)
      rw [← hn, List.length_cons]
      exact Nat.lt_succ_of_le (List.length_filter_le _ _)

variable [PartialEquivBEq κ]

theorem joinGroup_cons_of_beq (h : (k == key a) = true)
    (hgroups : ∀ g ∈ groups, (g.1 == k) = false) :
    joinGroup key ((k, members) :: groups) a = (k, members ++ [a]) :: groups := by
  have hothers : groups.map (fun (k', others) =>
      (k', if k' == key a then others ++ [a] else others)) = groups := by
    refine (List.map_congr_left fun g hg => ?_).trans (List.map_id groups)
    have hne : ¬ (g.1 == key a) = true := fun heq =>
      Bool.false_ne_true ((hgroups g hg).symm.trans (BEq.trans heq (BEq.symm h)))
    simp only [if_neg hne, id]
  rw [joinGroup, if_pos (by rw [List.any_cons, h, Bool.true_or]), List.map_cons, hothers]
  simp only [if_pos h]

theorem foldl_joinGroup_cons (items : List α) (hgroups : ∀ g ∈ groups, (g.1 == k) = false) :
    items.foldl (joinGroup key) ((k, members) :: groups) =
      (k, members ++ items.filter (key · == k)) ::
        (items.filter (!key · == k)).foldl (joinGroup key) groups := by
  induction items generalizing members groups with
  | nil => simp
  | cons a items ih =>
    rw [List.foldl_cons, List.filter_cons, List.filter_cons]
    cases h : key a == k with
    | true =>
      rw [joinGroup_cons_of_beq (BEq.symm h) hgroups, ih hgroups, if_pos rfl, Bool.not_true,
        if_neg Bool.false_ne_true, List.append_assoc, List.singleton_append]
    | false =>
      rw [joinGroup_cons_of_not_beq (BEq.comm.trans h), ih (forall_mem_joinGroup h hgroups),
        if_neg Bool.false_ne_true, Bool.not_false, if_pos rfl, List.foldl_cons]

theorem groupBy_cons (a : α) (rest : List α) :
    groupBy key (a :: rest) = (key a, a :: rest.filter (key · == key a)) ::
      groupBy key (rest.filter (!key · == key a)) :=
  foldl_joinGroup_cons rest (List.forall_mem_nil _)

end Recursion

section Groups

variable [PartialEquivBEq κ] {items : List α} {g : κ × List α}

theorem exists_of_mem_groupBy (h : g ∈ groupBy key items) :
    ∃ a rest, g = (key a, a :: rest) ∧ a ∈ items ∧ ∀ b ∈ rest, b ∈ items ∧ key b == key a := by
  induction items using groupBy_induction key with
  | nil => cases h
  | cons a rest ih =>
    rw [groupBy_cons, List.mem_cons] at h
    rcases h with rfl | h
    · refine ⟨a, _, rfl, List.mem_cons_self, fun b hb => ?_⟩
      obtain ⟨hb, hkey⟩ := List.mem_filter.mp hb
      exact ⟨List.mem_cons_of_mem a hb, hkey⟩
    · obtain ⟨b, others, rfl, hb, hothers⟩ := ih h
      have hsub {c : α} (hc : c ∈ rest.filter (!key · == key a)) : c ∈ a :: rest :=
        List.mem_cons_of_mem a (List.mem_of_mem_filter hc)
      exact ⟨b, others, rfl, hsub hb, fun c hc => ⟨hsub (hothers c hc).1, (hothers c hc).2⟩⟩

theorem ne_of_mem_groupBy {k : κ} (h : g ∈ groupBy key (items.filter (!key · == k))) :
    (g.1 == k) = false := by
  obtain ⟨a, rest, rfl, ha, -⟩ := exists_of_mem_groupBy h
  exact Bool.not_eq_true' _ ▸ (List.mem_filter.mp ha).2

theorem pairwise_groupBy (items : List α) :
    (groupBy key items).Pairwise fun g g' => (g.1 == g'.1) = false := by
  induction items using groupBy_induction key with
  | nil => exact .nil
  | cons a rest ih =>
    rw [groupBy_cons]
    exact .cons (fun g hg => BEq.comm.trans (ne_of_mem_groupBy hg)) ih

theorem keys_groupBy (items : List α) :
    (groupBy key items).map (·.1) = (items.map key).eraseDups := by
  induction items using groupBy_induction key with
  | nil => rfl
  | cons a rest ih =>
    rw [groupBy_cons, List.map_cons, ih, List.map_cons, List.eraseDups_cons, List.filter_map]
    rfl

theorem firsts_groupBy (items : List α) :
    ((groupBy key items).filterMap (·.2.head?)).Sublist items := by
  induction items using groupBy_induction key with
  | nil => exact .slnil
  | cons a rest ih =>
    rw [groupBy_cons, List.filterMap_cons]
    exact (ih.trans List.filter_sublist).cons_cons a

theorem filter_filter_not_beq {k k' : κ} (hne : (k == k') = false) (items : List α) :
    (items.filter (!key · == k)).filter (key · == k') = items.filter (key · == k') := by
  rw [List.filter_filter]
  refine List.filter_congr fun b _ => ?_
  rw [Bool.and_eq_left_iff_imp, Bool.not_eq_true', ← Bool.not_eq_true]
  intro hb hbk
  exact Bool.false_ne_true (hne.symm.trans (BEq.trans (BEq.symm hbk) hb))

theorem members_of_mem_groupBy (h : g ∈ groupBy key items) (hself : (g.1 == g.1) = true) :
    g.2 = items.filter (key · == g.1) := by
  induction items using groupBy_induction key with
  | nil => cases h
  | cons a rest ih =>
    rw [groupBy_cons, List.mem_cons] at h
    rcases h with rfl | h
    · rw [List.filter_cons, if_pos hself]
    · have hne := BEq.comm.trans (ne_of_mem_groupBy h)
      rw [ih h, filter_filter_not_beq hne, List.filter_cons, hne, if_neg Bool.false_ne_true]

theorem alone_of_mem_groupBy (h : g ∈ groupBy key items) (hself : (g.1 == g.1) = false) :
    ∃ a, g = (key a, [a]) := by
  obtain ⟨a, rest, rfl, -, hrest⟩ := exists_of_mem_groupBy h
  cases rest with
  | nil => exact ⟨a, rfl⟩
  | cons b rest =>
    have hb := (hrest b List.mem_cons_self).2
    exact absurd (hself.symm.trans (BEq.trans (BEq.symm hb) hb)) Bool.false_ne_true

theorem perm_groupBy (items : List α) : ((groupBy key items).flatMap (·.2)).Perm items := by
  induction items using groupBy_induction key with
  | nil => exact .refl _
  | cons a rest ih =>
    rw [groupBy_cons, List.flatMap_cons, List.cons_append]
    exact ((ih.append_left _).trans (List.filter_append_perm _ rest)).cons a

theorem groupBy_flatMap_groupBy (items : List α) :
    groupBy key ((groupBy key items).flatMap (·.2)) = groupBy key items := by
  induction items using groupBy_induction key with
  | nil => rfl
  | cons a rest ih =>
    -- Behind the first item stand the others of its key and then all items of other keys, so that it
    -- takes the same items and leaves the same ones.
    have hown : ∀ b ∈ rest.filter (key · == key a), (key b == key a) = true := fun b hb =>
      (List.mem_filter.mp hb).2
    have hothers : ∀ b ∈ (groupBy key (rest.filter (!key · == key a))).flatMap (·.2),
        (!key b == key a) = true := fun b hb =>
      (List.mem_filter.mp ((perm_groupBy _).subset hb)).2
    have hownNot : (rest.filter (key · == key a)).filter (!key · == key a) = [] :=
      List.filter_eq_nil_iff.mpr fun b hb => by simpa using hown b hb
    have hothersNot : ((groupBy key (rest.filter (!key · == key a))).flatMap (·.2)).filter
        (key · == key a) = [] :=
      List.filter_eq_nil_iff.mpr fun b hb => by simpa using hothers b hb
    rw [groupBy_cons, List.flatMap_cons, List.cons_append, groupBy_cons, List.filter_append,
      List.filter_append, List.filter_eq_self.mpr hown, List.filter_eq_self.mpr hothers, hownNot,
      hothersNot, List.append_nil, List.nil_append, ih]

end Groups

section Lawful

variable [LawfulBEq κ] {items : List α}

def grouping (key : α → κ) (items : List α) : List (κ × List α) :=
  (items.map key).eraseDups.map fun k => (k, items.filter (key · == k))

theorem groupBy_eq (items : List α) : groupBy key items = grouping key items := by
  rw [grouping, ← keys_groupBy, List.map_map]
  refine ((List.map_congr_left fun g hg => ?_).trans (List.map_id _)).symm
  exact Prod.ext rfl (members_of_mem_groupBy hg (beq_self_eq_true g.1)).symm

theorem nodup_grouping (key : α → κ) (items : List α) :
    ((grouping key items).map (·.1)).Nodup := by
  rw [← groupBy_eq]
  exact List.pairwise_map.mpr ((pairwise_groupBy items).imp fun h => ne_of_beq_false h)

theorem members_of_mem_grouping {group : κ × List α} (h : group ∈ grouping key items) :
    group.2 ≠ [] ∧ ∀ a ∈ group.2, a ∈ items ∧ key a = group.1 := by
  rw [← groupBy_eq] at h
  obtain ⟨a, rest, rfl, ha, hrest⟩ := exists_of_mem_groupBy h
  refine ⟨List.cons_ne_nil a rest, List.forall_mem_cons.mpr ⟨⟨ha, rfl⟩, fun b hb => ?_⟩⟩
  exact ⟨(hrest b hb).1, beq_iff_eq.mp (hrest b hb).2⟩

theorem perm_grouping (items : List α) : ((grouping key items).flatMap (·.2)).Perm items := by
  rw [← groupBy_eq]
  exact perm_groupBy items

end Lawful
end SiteVisit
