import Mathlib
import AlulaKeeper.Keeper.Reservations

/-!
# The ids of one task

The ledger beside the ids that one of its callers has drawn, while the others reserve and release.

* `Ledger`: every reservation under those ids is held for something, and until it expires.
* `Spares`: what the other callers and the clock do; `Ledger.spared` outlasts it.
* `Ledger.draw`, `Ledger.release`: an id drawn, and given back; `Ledger.granted`, `spares_refused`: the two ends
  of a `reserve`.
* `Minds`, `Shared`: tasks over one ledger, each with its own ids; `Shared.move`, one of them goes on, and
  `Shared.beside`, what the others see of it.
-/

namespace AlulaKeeper

open I128

/-! ## The reservations of a task -/

/-- What is to be reserved, of a token, has been reserved since the task started and is held until it expires. -/
def Reserves (ttl started : ℕ) (book : Book) (reserved : Address × ℤ) (id : ℕ) : Prop :=
  0 < reserved.2 → ∃ r : Reservation, r.id = id ∧ (r.tokenAddress, r.amount) = reserved ∧
    started ≤ r.createdAt ∧ (r ∈ book.inner.reservations ∨ ttl ≤ book.now - r.createdAt)

/-- The ledger beside the ids the task has drawn, and what those it still answers for have reserved. -/
structure Ledger (ttl started : ℕ) (book : Book) (own : List ℕ) (holders : List ((Address × ℤ) × ℕ)) :
    Prop where
  stored : ∀ r ∈ book.inner.reservations, r.id ∈ book.issued
  issued : ∀ id ∈ own, id ∈ book.issued
  clock : started ≤ book.now
  drawn : ∀ h ∈ holders, h.2 ∈ own
  distinct : (holders.map Prod.snd).Nodup
  held : ∀ h ∈ holders, Reserves ttl started book h.1 h.2
  kept : ∀ r ∈ book.inner.reservations, r.id ∈ own →
    ∃ h ∈ holders, h.2 = r.id ∧ (r.tokenAddress, r.amount) = h.1

/-- What leaves the reservations under `own` to themselves: others may come under new ids, and what goes has
expired. -/
structure Spares (ttl : ℕ) (own : List ℕ) (book book' : Book) : Prop where
  clock : book.now ≤ book'.now
  issued : ∀ id ∈ book.issued, id ∈ book'.issued
  comes : ∀ r ∈ book'.inner.reservations, r ∈ book.inner.reservations ∨
    r.id ∉ book.issued ∧ r.id ∈ book'.issued
  goes : ∀ r ∈ book.inner.reservations, r.id ∈ own →
    r ∈ book'.inner.reservations ∨ ttl ≤ book'.now - r.createdAt

section Ledger

variable {ttl started id : ℕ} {book book' : Book} {own : List ℕ} {holders : List ((Address × ℤ) × ℕ)}
  {reserved : Address × ℤ}

theorem Ledger.spared (h : Ledger ttl started book own holders) (hspares : Spares ttl own book book') :
    Ledger ttl started book' own holders where
  stored r hr := (hspares.comes r hr).elim (fun hmem => hspares.issued _ (h.stored r hmem)) And.right
  issued id hid := hspares.issued id (h.issued id hid)
  clock := h.clock.trans hspares.clock
  drawn := h.drawn
  distinct := h.distinct
  held holder hholder hpos := by
    obtain ⟨r, hid, hreserved, hstarted, hlive | hexpired⟩ := h.held holder hholder hpos
    · have hown : r.id ∈ own := by
        rw [hid]
        exact h.drawn holder hholder
      exact ⟨r, hid, hreserved, hstarted, hspares.goes r hlive hown⟩
    · have hclock := hspares.clock
      exact ⟨r, hid, hreserved, hstarted, .inr (by omega)⟩
  kept r hr hown := by
    obtain hmem | ⟨hnew, -⟩ := hspares.comes r hr
    · exact h.kept r hmem hown
    · exact absurd (h.issued _ hown) hnew

theorem spares_balances (ttl : ℕ) (own : List ℕ) (book : Book) (balances : Address → Option CachedBalance) :
    Spares ttl own book { book with inner := { book.inner with balances } } :=
  ⟨le_rfl, fun _ hid => hid, fun _ hr => .inl hr, fun _ hr _ => .inl hr⟩

theorem spares_unlockExpired {config : CapitalConfig} (own : List ℕ) (book : Book) :
    Spares config.reservationTtl own book
      { book with inner := book.inner.unlockExpired config book.now } where
  clock := le_rfl
  issued _ hid := hid
  comes r hr := .inl (List.mem_of_mem_filter hr)
  goes r hr _ := by
    by_cases hlive : book.now - r.createdAt < config.reservationTtl
    · exact .inl (List.mem_filter.mpr ⟨hr, decide_eq_true hlive⟩)
    · exact .inr (not_lt.mp hlive)

theorem spares_granted {config : CapitalConfig} {amount : ℤ} {token : Address}
    (hown : ∀ id ∈ own, id ∈ book.issued) (hfresh : id ∉ book.issued) :
    Spares config.reservationTtl own book
      { now := book.now
        issued := id :: book.issued
        inner := { book.inner.unlockExpired config book.now with
          reservations := { id, amount, createdAt := book.now, tokenAddress := token } ::
            (book.inner.unlockExpired config book.now).reservations.filter (·.id ≠ id) } } where
  clock := le_rfl
  issued _ hid := List.mem_cons_of_mem _ hid
  comes r hr := by
    obtain rfl | hr := List.mem_cons.mp hr
    · exact .inr ⟨hfresh, List.mem_cons_self⟩
    · exact .inl (List.mem_of_mem_filter (List.mem_of_mem_filter hr))
  goes r hr hrown := by
    obtain hlive | hexpired := (spares_unlockExpired own book).goes r hr hrown
    · refine .inl (List.mem_cons_of_mem _ (List.mem_filter.mpr ⟨hlive, decide_eq_true ?_⟩))
      rintro rfl
      exact hfresh (hown _ hrown)
    · exact .inr hexpired

section Reserving

variable {config : CapitalConfig} {opId : ℕ} {amount available : ℤ} {token : Address} {e : KeeperError}
  {inner : CapitalInner}

theorem refused_eq (h : book.inner.reserve config book.now id amount available token = .ok (.error e, inner)) :
    inner = book.inner ∨ inner = book.inner.unlockExpired config book.now := by
  obtain ⟨-, hinner⟩ | ⟨hbad, -⟩ := reserve_cases h
  · exact hinner
  · cases hbad

theorem granted_eq (h : book.inner.reserve config book.now id amount available token = .ok (.ok opId, inner)) :
    opId = id ∧ inner = { book.inner.unlockExpired config book.now with
      reservations := { id, amount, createdAt := book.now, tokenAddress := token } ::
        (book.inner.unlockExpired config book.now).reservations.filter (·.id ≠ id) } := by
  obtain ⟨⟨_, hbad⟩, -⟩ | ⟨hid, -, -, hinner⟩ := reserve_cases h
  · cases hbad
  · exact ⟨Except.ok.inj hid, hinner⟩

theorem spares_refused (own : List ℕ)
    (h : book.inner.reserve config book.now id amount available token = .ok (.error e, inner)) :
    Spares config.reservationTtl own book { book with inner } := by
  obtain rfl | rfl := refused_eq h
  · exact spares_balances _ _ _ book.inner.balances
  · exact spares_unlockExpired own book

end Reserving

theorem spares_bookStep {config : CapitalConfig} {act : BookAct} (hown : ∀ id ∈ own, id ∈ book.issued)
    (hreserve : ∀ id amount available token, act = .reserve id amount available token → id ∉ book.issued)
    (hrelease : ∀ id, act = .release id → id ∉ own) (h : bookStep config book act = some book') :
    Spares config.reservationTtl own book book' := by
  cases act with
  | tick seconds =>
    cases h
    exact ⟨Nat.le_add_right _ _, fun _ hid => hid, fun r hr => .inl hr, fun r hr _ => .inl hr⟩
  | release id =>
    cases h
    refine ⟨le_rfl, fun _ hid => hid, fun r hr => .inl (List.mem_of_mem_filter hr), fun r hr hrown => ?_⟩
    refine .inl (List.mem_filter.mpr ⟨hr, decide_eq_true ?_⟩)
    rintro rfl
    exact hrelease _ rfl hrown
  | reserve id amount available token =>
    simp only [bookStep] at h
    split at h
    · rename_i granted inner hreserved
      cases h
      obtain ⟨rfl, rfl⟩ := granted_eq hreserved
      exact spares_granted hown (hreserve _ _ _ _ rfl)
    · rename_i e inner hrefused
      cases h
      exact spares_refused own hrefused
    · cases h

theorem Ledger.draw (h : Ledger ttl started book own holders) (hspares : Spares ttl own book book')
    (hfresh : id ∉ book.issued) (hissued : id ∈ book'.issued) (hholds : Reserves ttl started book' reserved id)
    (hkept : ∀ r ∈ book'.inner.reservations, r.id = id → (r.tokenAddress, r.amount) = reserved) :
    Ledger ttl started book' (id :: own) (holders ++ [(reserved, id)]) := by
  have hspared := h.spared hspares
  have hnew : ∀ holder ∈ holders, holder.2 ≠ id := by
    rintro holder hholder rfl
    exact hfresh (h.issued _ (h.drawn holder hholder))
  refine ⟨hspared.stored, ?_, hspared.clock, ?_, ?_, ?_, ?_⟩
  · exact List.forall_mem_cons.mpr ⟨hissued, hspared.issued⟩
  · intro holder hholder
    obtain hholder | hlast := List.mem_append.mp hholder
    · exact List.mem_cons_of_mem _ (h.drawn holder hholder)
    · obtain rfl := List.mem_singleton.mp hlast
      exact List.mem_cons_self
  · rw [List.map_append, List.nodup_append]
    refine ⟨h.distinct, List.nodup_singleton _, fun id' hid' last hlast => ?_⟩
    obtain ⟨holder, hholder, rfl⟩ := List.mem_map.mp hid'
    obtain rfl := List.mem_singleton.mp hlast
    exact hnew holder hholder
  · intro holder hholder
    obtain hholder | hlast := List.mem_append.mp hholder
    · exact hspared.held holder hholder
    · obtain rfl := List.mem_singleton.mp hlast
      exact hholds
  · intro r hr hrown
    by_cases hid : r.id = id
    · exact ⟨(reserved, id), List.mem_append_right _ (List.mem_singleton_self _), hid.symm, hkept r hr hid⟩
    · obtain ⟨holder, hholder, hreserved⟩ := hspared.kept r hr ((List.mem_cons.mp hrown).resolve_left hid)
      exact ⟨holder, List.mem_append_left _ hholder, hreserved⟩

theorem Ledger.mint (h : Ledger ttl started book own holders) (hfresh : id ∉ book.issued)
    (hnothing : ¬ 0 < reserved.2) : Ledger ttl started { book with issued := id :: book.issued } (id :: own)
      (holders ++ [(reserved, id)]) := by
  have hspares : Spares ttl own book { book with issued := id :: book.issued } :=
    ⟨le_rfl, fun _ hid => List.mem_cons_of_mem _ hid, fun _ hr => .inl hr, fun _ hr _ => .inl hr⟩
  refine h.draw hspares hfresh List.mem_cons_self (fun hpos => absurd hpos hnothing) fun r hr hid => ?_
  obtain rfl := hid
  exact absurd (h.stored r hr) hfresh

theorem Ledger.settle (h : Ledger ttl started book own holders) (id : ℕ) :
    Ledger ttl started { book with inner := book.inner.release id } own (holders.filter (·.2 ≠ id)) := by
  refine ⟨fun r hr => h.stored r (List.mem_of_mem_filter hr), h.issued, h.clock, fun holder hholder => ?_,
    ?_, fun holder hholder hpos => ?_, fun r hr hown => ?_⟩
  · exact h.drawn holder (List.mem_of_mem_filter hholder)
  · exact h.distinct.sublist (List.filter_sublist.map _)
  · obtain ⟨hheld, hother⟩ := List.mem_filter.mp hholder
    obtain ⟨r, hid, hreserved, hstarted, hlive | hexpired⟩ := h.held holder hheld hpos
    · refine ⟨r, hid, hreserved, hstarted, .inl (List.mem_filter.mpr ⟨hlive, ?_⟩)⟩
      rwa [hid]
    · exact ⟨r, hid, hreserved, hstarted, .inr hexpired⟩
  · obtain ⟨hmem, hid⟩ := List.mem_filter.mp hr
    obtain ⟨holder, hholder, hsame, hreserved⟩ := h.kept r hmem hown
    refine ⟨holder, List.mem_filter.mpr ⟨hholder, ?_⟩, hsame, hreserved⟩
    rwa [hsame]

theorem Ledger.release (h : Ledger ttl started book own (holders ++ [(reserved, id)])) :
    Ledger ttl started { book with inner := book.inner.release id } own holders := by
  have hdistinct := h.distinct
  rw [List.map_append, List.nodup_append] at hdistinct
  have hother : ∀ holder ∈ holders, holder.2 ≠ id := fun holder hholder =>
    hdistinct.2.2 _ (List.mem_map_of_mem hholder) _ (List.mem_singleton_self _)
  have hrest : (holders ++ [(reserved, id)]).filter (·.2 ≠ id) = holders := by
    rw [List.filter_append, List.filter_eq_self.mpr fun holder hholder => decide_eq_true (hother holder hholder)]
    simp
  have hsettled := h.settle id
  rwa [hrest] at hsettled

/-- **A reservation granted**: the id is drawn for what is reserved. -/
theorem Ledger.granted {config : CapitalConfig} {opId : ℕ} {amount available : ℤ} {token : Address}
    {inner : CapitalInner} (h : Ledger config.reservationTtl started book own holders)
    (hfresh : id ∉ book.issued)
    (hr : book.inner.reserve config book.now id amount available token = .ok (.ok opId, inner)) :
    opId = id ∧ Ledger config.reservationTtl started { book with inner, issued := id :: book.issued }
      (id :: own) (holders ++ [((token, amount), id)]) := by
  obtain ⟨rfl, rfl⟩ := granted_eq hr
  refine ⟨rfl, h.draw (spares_granted h.issued hfresh) hfresh List.mem_cons_self
    (fun _ => ⟨_, rfl, rfl, h.clock, .inl List.mem_cons_self⟩) fun r hr hid => ?_⟩
  obtain rfl | hr := List.mem_cons.mp hr
  · rfl
  · obtain rfl := hid
    exact absurd (h.stored r (List.mem_of_mem_filter (List.mem_of_mem_filter hr))) hfresh

end Ledger

/-! ## Tasks that share the ledger -/

/-- What a task does: its reservations come under fresh ids, and it gives back none but its own. -/
structure Minds (ttl : ℕ) (own own' : List ℕ) (book book' : Book) : Prop where
  clock : book.now ≤ book'.now
  issued : ∀ id ∈ book.issued, id ∈ book'.issued
  drawn : ∀ id ∈ own', id ∈ own ∨ id ∉ book.issued
  comes : ∀ r ∈ book'.inner.reservations, r ∈ book.inner.reservations ∨
    r.id ∈ own' ∧ r.id ∉ book.issued ∧ r.id ∈ book'.issued
  goes : ∀ r ∈ book.inner.reservations, r.id ∉ own →
    r ∈ book'.inner.reservations ∨ ttl ≤ book'.now - r.createdAt
  keeps : ∀ r ∈ book'.inner.reservations, r.id ∈ own → r.id ∈ own'
  distinct : (book.inner.reservations.map (·.id)).Nodup → (book'.inner.reservations.map (·.id)).Nodup

/-- A task, by its ids and what they are held for. -/
structure Party where
  own : List ℕ
  holders : List ((Address × ℤ) × ℕ)

/-- The tasks' ids are apart, and every reservation is some task's. -/
structure Shared {ι : Type} (ttl : ℕ) (book : Book) (parties : ι → Party) : Prop where
  ledger : ∀ i, Ledger ttl 0 book (parties i).own (parties i).holders
  apart : ∀ i j, i ≠ j → ∀ id ∈ (parties i).own, id ∉ (parties j).own
  covers : ∀ r ∈ book.inner.reservations, ∃ i, r.id ∈ (parties i).own
  distinct : (book.inner.reservations.map (·.id)).Nodup

section Shared

variable {ι : Type} {ttl started : ℕ} {book book' : Book} {own own' other : List ℕ}
  {holders : List ((Address × ℤ) × ℕ)} {parties parties' : ι → Party} {i j : ι}

theorem Minds.spares (h : Minds ttl own own' book book') (hapart : ∀ id ∈ other, id ∉ own) :
    Spares ttl other book book' where
  clock := h.clock
  issued := h.issued
  comes r hr := (h.comes r hr).imp_right And.right
  goes r hr hrown := h.goes r hr (hapart _ hrown)

/-- Nothing is drawn, and nothing given back but what has expired. -/
theorem Spares.minds (h : ∀ own, Spares ttl own book book')
    (hsub : book'.inner.reservations.Sublist book.inner.reservations) (own : List ℕ) :
    Minds ttl own own book book' where
  clock := (h own).clock
  issued := (h own).issued
  drawn _ hid := .inl hid
  comes _ hr := .inl (hsub.subset hr)
  goes r hr _ := (h [r.id]).goes r hr (List.mem_singleton_self _)
  keeps _ _ hown := hown
  distinct hdistinct := hdistinct.sublist (hsub.map _)

theorem minds_balances (ttl : ℕ) (own : List ℕ) (book : Book) (balances : Address → Option CachedBalance) :
    Minds ttl own own book { book with inner := { book.inner with balances } } :=
  Spares.minds (fun own => spares_balances ttl own book balances) (List.Sublist.refl _) own

section Reserving

variable {config : CapitalConfig} {id opId : ℕ} {amount available : ℤ} {token : Address} {e : KeeperError}
  {inner : CapitalInner}

theorem minds_refused (own : List ℕ)
    (h : book.inner.reserve config book.now id amount available token = .ok (.error e, inner)) :
    Minds config.reservationTtl own own book { book with inner } := by
  refine Spares.minds (fun own => spares_refused own h) ?_ own
  obtain rfl | rfl := refused_eq h
  · exact List.Sublist.refl _
  · exact List.filter_sublist

theorem minds_granted (own : List ℕ) (hstored : ∀ r ∈ book.inner.reservations, r.id ∈ book.issued)
    (hfresh : id ∉ book.issued)
    (h : book.inner.reserve config book.now id amount available token = .ok (.ok opId, inner)) :
    opId = id ∧
      Minds config.reservationTtl own (id :: own) book { book with inner, issued := id :: book.issued } := by
  obtain ⟨rfl, rfl⟩ := granted_eq h
  refine ⟨rfl, le_rfl, fun _ hid => List.mem_cons_of_mem _ hid, fun id hid => ?_, fun r hr => ?_,
    fun r hr hrown => ?_, fun _ _ hown => List.mem_cons_of_mem _ hown, fun hdistinct => ?_⟩
  · obtain rfl | hid := List.mem_cons.mp hid
    · exact .inr hfresh
    · exact .inl hid
  · obtain rfl | hr := List.mem_cons.mp hr
    · exact .inr ⟨List.mem_cons_self, hfresh, List.mem_cons_self⟩
    · exact .inl (List.mem_of_mem_filter (List.mem_of_mem_filter hr))
  · have hissued : ∀ id ∈ [r.id], id ∈ book.issued := by
      simpa using hstored r hr
    exact (spares_granted hissued hfresh).goes r hr (List.mem_singleton_self _)
  · refine List.nodup_cons.mpr ⟨?_, hdistinct.sublist ((List.filter_sublist.trans List.filter_sublist).map _)⟩
    rintro hid
    obtain ⟨r, hr, rfl⟩ := List.mem_map.mp hid
    exact hfresh (hstored r (List.mem_of_mem_filter (List.mem_of_mem_filter hr)))

end Reserving

theorem minds_mint (ttl : ℕ) {id : ℕ} (own : List ℕ) (hfresh : id ∉ book.issued) :
    Minds ttl own (id :: own) book { book with issued := id :: book.issued } where
  clock := le_rfl
  issued _ hid := List.mem_cons_of_mem _ hid
  drawn id' hid' := by
    obtain rfl | hid' := List.mem_cons.mp hid'
    · exact .inr hfresh
    · exact .inl hid'
  comes _ hr := .inl hr
  goes _ hr _ := .inl hr
  keeps _ _ hown := List.mem_cons_of_mem _ hown
  distinct hdistinct := hdistinct

theorem minds_release (ttl : ℕ) {id : ℕ} (hown : id ∈ own) (hsub : own' ⊆ own)
    (hkeeps : ∀ id' ∈ own, id' ≠ id → id' ∈ own') :
    Minds ttl own own' book { book with inner := book.inner.release id } where
  clock := le_rfl
  issued _ hid := hid
  drawn id' hid' := .inl (hsub hid')
  comes _ hr := .inl (List.mem_of_mem_filter hr)
  goes r hr hrown := by
    refine .inl (List.mem_filter.mpr ⟨hr, decide_eq_true ?_⟩)
    rintro rfl
    exact hrown hown
  keeps r hr hrown := hkeeps r.id hrown (of_decide_eq_true (List.mem_filter.mp hr).2)
  distinct hdistinct := hdistinct.sublist (List.filter_sublist.map _)

theorem Ledger.since (h : Ledger ttl started book own holders) : Ledger ttl 0 book own holders :=
  { h with
    clock := Nat.zero_le _
    held := fun holder hholder hpos => by
      obtain ⟨r, hid, hreserved, -, hlive⟩ := h.held holder hholder hpos
      exact ⟨r, hid, hreserved, Nat.zero_le _, hlive⟩ }

/-- The ids under which nothing is held may be forgotten. -/
theorem Ledger.tight (h : Ledger ttl started book own holders) :
    Ledger ttl started book (holders.map Prod.snd) holders :=
  { h with
    issued := fun id hid => by
      obtain ⟨holder, hholder, rfl⟩ := List.mem_map.mp hid
      exact h.issued _ (h.drawn holder hholder)
    drawn := fun _ hholder => List.mem_map_of_mem hholder
    kept := fun r hr hid => by
      obtain ⟨holder, hholder, hsame⟩ := List.mem_map.mp hid
      exact h.kept r hr (hsame ▸ h.drawn holder hholder) }

theorem Ledger.nil (h : Ledger ttl started book own holders) : Ledger ttl started book [] [] where
  stored := h.stored
  issued := by simp
  clock := h.clock
  drawn := by simp
  distinct := by simp
  held := by simp
  kept := by simp

theorem Ledger.append {holders' : List ((Address × ℤ) × ℕ)} (h : Ledger ttl started book own holders)
    (h' : Ledger ttl started book own' holders') (hapart : ∀ id ∈ own, id ∉ own') :
    Ledger ttl started book (own ++ own') (holders ++ holders') where
  stored := h.stored
  issued := List.forall_mem_append.mpr ⟨h.issued, h'.issued⟩
  clock := h.clock
  drawn := List.forall_mem_append.mpr ⟨fun holder hholder => List.mem_append_left _ (h.drawn holder hholder),
    fun holder hholder => List.mem_append_right _ (h'.drawn holder hholder)⟩
  distinct := by
    rw [List.map_append, List.nodup_append]
    refine ⟨h.distinct, h'.distinct, ?_⟩
    rintro id hid id' hid' rfl
    obtain ⟨holder, hholder, rfl⟩ := List.mem_map.mp hid
    obtain ⟨holder', hholder', hsame⟩ := List.mem_map.mp hid'
    exact hapart _ (h.drawn holder hholder) (hsame ▸ h'.drawn holder' hholder')
  held := List.forall_mem_append.mpr ⟨h.held, h'.held⟩
  kept r hr hown := by
    obtain hown | hown := List.mem_append.mp hown
    · obtain ⟨holder, hholder, hsame⟩ := h.kept r hr hown
      exact ⟨holder, List.mem_append_left _ hholder, hsame⟩
    · obtain ⟨holder, hholder, hsame⟩ := h'.kept r hr hown
      exact ⟨holder, List.mem_append_right _ hholder, hsame⟩

/-- What one task does leaves the reservations of the others to themselves. -/
theorem Shared.beside (h : Shared ttl book parties) (hi : (parties i).own = own) (hj : (parties j).own = other)
    (hji : j ≠ i) (hminds : Minds ttl own own' book book') : Spares ttl other book book' := by
  subst hi hj
  exact hminds.spares (h.apart j i hji)

/-- **One task goes on**, and the others are where they were. -/
theorem Shared.move (h : Shared ttl book parties)
    (hminds : Minds ttl (parties i).own (parties' i).own book book')
    (hparty : Ledger ttl 0 book' (parties' i).own (parties' i).holders)
    (hrest : ∀ k, k ≠ i → parties' k = parties k) : Shared ttl book' parties' := by
  have hapart : ∀ k, k ≠ i → ∀ id ∈ (parties k).own, id ∉ (parties' i).own := by
    intro k hk id hid hown
    obtain hold | hfresh := hminds.drawn id hown
    · exact h.apart k i hk id hid hold
    · exact hfresh ((h.ledger k).issued id hid)
  refine ⟨fun k => ?_, fun k l hkl id hid hid' => ?_, fun r hr => ?_, hminds.distinct h.distinct⟩
  · by_cases hk : k = i
    · rwa [hk]
    · rw [hrest k hk]
      exact (h.ledger k).spared (h.beside rfl rfl hk hminds)
  · by_cases hk : k = i
    · subst hk
      rw [hrest l (Ne.symm hkl)] at hid'
      exact hapart l (Ne.symm hkl) id hid' hid
    · rw [hrest k hk] at hid
      by_cases hl : l = i
      · subst hl
        exact hapart k hk id hid hid'
      · rw [hrest l hl] at hid'
        exact h.apart k l hkl id hid hid'
  · obtain hold | ⟨hown, -⟩ := hminds.comes r hr
    · obtain ⟨k, hk⟩ := h.covers r hold
      by_cases hki : k = i
      · subst hki
        exact ⟨k, hminds.keeps r hr hk⟩
      · exact ⟨k, by rwa [hrest k hki]⟩
    · exact ⟨i, hown⟩

theorem Shared.congr (h : Shared ttl book parties) (heq : ∀ i, parties' i = parties i) :
    Shared ttl book parties' := by
  obtain rfl : parties' = parties := funext heq
  exact h

theorem Shared.spared (h : Shared ttl book parties) (hspares : ∀ own, Spares ttl own book book')
    (hsub : book'.inner.reservations.Sublist book.inner.reservations) : Shared ttl book' parties where
  ledger i := (h.ledger i).spared (hspares _)
  apart := h.apart
  covers r hr := h.covers r (hsub.subset hr)
  distinct := h.distinct.sublist (hsub.map _)

/-- **What is held passes over** from one task to another. -/
theorem Shared.handOver (h : Shared ttl book parties) (hij : i ≠ j) (hfrom : parties' i = ⟨[], []⟩)
    (hto : parties' j = ⟨(parties j).own ++ (parties i).holders.map Prod.snd,
      (parties j).holders ++ (parties i).holders⟩)
    (hrest : ∀ k, k ≠ i → k ≠ j → parties' k = parties k) : Shared ttl book parties' := by
  have hheld : ∀ id ∈ (parties i).holders.map Prod.snd, id ∈ (parties i).own := by
    intro id hid
    obtain ⟨holder, hholder, rfl⟩ := List.mem_map.mp hid
    exact (h.ledger i).drawn holder hholder
  -- an id is its task's from before, unless it has passed over
  have hbefore : ∀ k id, id ∈ (parties' k).own →
      (k = j ∧ id ∈ (parties i).own) ∨ (k ≠ i ∧ id ∈ (parties k).own) := by
    intro k id hid
    by_cases hkj : k = j
    · rw [hkj, hto] at hid
      obtain hid | hid := List.mem_append.mp hid
      · exact .inr ⟨hkj ▸ Ne.symm hij, hkj ▸ hid⟩
      · exact .inl ⟨hkj, hheld id hid⟩
    · by_cases hki : k = i
      · rw [hki, hfrom] at hid
        exact absurd hid List.not_mem_nil
      · rw [hrest k hki hkj] at hid
        exact .inr ⟨hki, hid⟩
  refine ⟨fun k => ?_, fun k l hkl id hid hid' => ?_, fun r hr => ?_, h.distinct⟩
  · by_cases hkj : k = j
    · rw [hkj, hto]
      exact (h.ledger j).append (h.ledger i).tight fun id hid hpassed =>
        h.apart i j hij id (hheld id hpassed) hid
    · by_cases hki : k = i
      · rw [hki, hfrom]
        exact (h.ledger i).nil
      · rw [hrest k hki hkj]
        exact h.ledger k
  · obtain ⟨hk, hown⟩ | ⟨hki, hown⟩ := hbefore k id hid <;>
      obtain ⟨hl, hown'⟩ | ⟨hli, hown'⟩ := hbefore l id hid'
    · exact hkl (hk.trans hl.symm)
    · exact h.apart i l (Ne.symm hli) id hown hown'
    · exact h.apart k i hki id hown hown'
    · exact h.apart k l hkl id hown hown'
  · obtain ⟨k, hk⟩ := h.covers r hr
    by_cases hki : k = i
    · subst hki
      obtain ⟨holder, hholder, hid, -⟩ := (h.ledger k).kept r hr hk
      refine ⟨j, ?_⟩
      rw [hto, ← hid]
      exact List.mem_append_right _ (List.mem_map_of_mem hholder)
    · by_cases hkj : k = j
      · refine ⟨j, ?_⟩
        rw [hto, ← hkj]
        exact List.mem_append_left _ hk
      · exact ⟨k, by rwa [hrest k hki hkj]⟩

end Shared

theorem Shared.held_apart {ι : Type} {ttl : ℕ} {book : Book} {parties : ι → Party} {i j : ι}
    (h : Shared ttl book parties) (hij : i ≠ j) :
    ∀ id ∈ (parties i).holders.map Prod.snd, id ∉ (parties j).holders.map Prod.snd := by
  intro id hid hid'
  obtain ⟨holder, hholder, rfl⟩ := List.mem_map.mp hid
  obtain ⟨holder', hholder', hsame⟩ := List.mem_map.mp hid'
  exact h.apart i j hij _ ((h.ledger i).drawn holder hholder) (hsame ▸ (h.ledger j).drawn holder' hholder')

theorem total_le_held {inner : CapitalInner} {holders : List ((Address × ℤ) × ℕ)}
    (hdistinct : (inner.reservations.map (·.id)).Nodup)
    (h : ∀ r ∈ inner.reservations, ∃ holder ∈ holders, holder.2 = r.id ∧ (r.tokenAddress, r.amount) = holder.1)
    (token : Address) :
    inner.total token ≤ ((holders.filter (·.1.1 = token)).map fun holder => max holder.1.2 0).sum := by
  let held (r : Reservation) : (Address × ℤ) × ℕ := ((r.tokenAddress, r.amount), r.id)
  have hnodup : (inner.reservations.map held).Nodup := by
    refine List.Nodup.of_map Prod.snd ?_
    rw [List.map_map]
    exact hdistinct
  have hsub : inner.reservations.map held ⊆ holders := by
    intro holder hholder
    obtain ⟨r, hr, rfl⟩ := List.mem_map.mp hholder
    obtain ⟨holder, hmem, hid, hsame⟩ := h r hr
    have hholder : held r = holder := Prod.ext hsame hid.symm
    rwa [hholder]
  obtain ⟨part, hperm, hpart⟩ := List.subperm_of_subset hnodup hsub
  have hfilter : (inner.reservations.map held).filter (·.1.1 = token) =
      (inner.reservations.filter (·.tokenAddress = token)).map held := by
    rw [List.filter_map]
    rfl
  calc inner.total token
      ≤ ((inner.reservations.filter (·.tokenAddress = token)).map fun r => max r.amount 0).sum :=
        List.sum_le_sum fun r _ => le_max_left _ _
    _ = (((inner.reservations.map held).filter (·.1.1 = token)).map fun holder => max holder.1.2 0).sum := by
        rw [hfilter, List.map_map]
        rfl
    _ = ((part.filter (·.1.1 = token)).map fun holder => max holder.1.2 0).sum :=
        ((hperm.symm.filter _).map _).sum_eq
    _ ≤ ((holders.filter (·.1.1 = token)).map fun holder => max holder.1.2 0).sum := by
        refine ((hpart.filter _).map _).sum_le_sum fun v hv => ?_
        obtain ⟨holder, -, rfl⟩ := List.mem_map.mp hv
        exact le_max_right _ _

end AlulaKeeper
