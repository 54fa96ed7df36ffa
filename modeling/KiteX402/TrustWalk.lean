/-
Walking a chain of hops outwards as long as every hop is trusted.
-/
import Mathlib.Data.List.Basic

namespace KiteX402

section Walk

variable {H A : Type*} (read : H → Option A) (trusted : A → Prop) [DecidablePred trusted]

/-- The first address on the way out that is not trusted, else the last one.
A hop is read only where everything before it is trusted; `none` is a hop that
cannot be read. -/
def trustWalk (client : A) : List H → Option A
  | [] => some client
  | hop :: rest =>
      if trusted client then
        match read hop with
        | some next => trustWalk next rest
        | none => none
      else some client

/-- A hop that the walk passes by. -/
def Passes (hop : H) : Prop := ∃ address, read hop = some address ∧ trusted address

variable {read trusted}

theorem trustWalk_of_not_trusted {client : A} (hclient : ¬ trusted client) (hops : List H) :
    trustWalk read trusted client hops = some client := by
  cases hops with
  | nil => rfl
  | cons hop rest => rw [trustWalk, if_neg hclient]

theorem trustWalk_cons_of_passes {client next : A} {hop : H} (hclient : trusted client)
    (hread : read hop = some next) (rest : List H) :
    trustWalk read trusted client (hop :: rest) = trustWalk read trusted next rest := by
  rw [trustWalk, if_pos hclient, hread]

/-- The walk over two stretches goes on with the second where the first ends,
unless a hop of the first cannot be read. -/
theorem trustWalk_append (client : A) (first second : List H) :
    trustWalk read trusted client (first ++ second) =
      (trustWalk read trusted client first).bind fun next =>
        trustWalk read trusted next second := by
  induction first generalizing client with
  | nil => rfl
  | cons hop rest ih =>
      by_cases hclient : trusted client
      · cases hread : read hop with
        | none => simp only [List.cons_append, trustWalk, hclient, if_true, hread, Option.bind_none]
        | some next =>
            rw [List.cons_append, trustWalk_cons_of_passes hclient hread,
              trustWalk_cons_of_passes hclient hread, ih]
      · rw [trustWalk_of_not_trusted hclient, trustWalk_of_not_trusted hclient, Option.bind_some,
          trustWalk_of_not_trusted hclient]

/-- A hop of a chain behind hops of one kind only is the first one, or a hop of
the rest behind such hops. -/
theorem exists_split_cons_iff {P : H → Prop} {Q : H → List H → Prop} {first : H}
    {rest : List H} :
    (∃ near hop far, first :: rest = near ++ hop :: far ∧ (∀ h ∈ near, P h) ∧ Q hop far) ↔
      Q first rest ∨ P first ∧
        ∃ near hop far, rest = near ++ hop :: far ∧ (∀ h ∈ near, P h) ∧ Q hop far := by
  constructor
  · rintro ⟨near, hop, far, hsplit, hnear, hend⟩
    cases near with
    | nil =>
        obtain ⟨rfl, rfl⟩ := List.cons.inj hsplit
        exact Or.inl hend
    | cons head near =>
        obtain ⟨rfl, hrest⟩ := List.cons.inj hsplit
        obtain ⟨hhead, hnear⟩ := List.forall_mem_cons.mp hnear
        exact Or.inr ⟨hhead, near, hop, far, hrest, hnear, hend⟩
  · rintro (hend | ⟨hfirst, near, hop, far, hrest, hnear, hend⟩)
    · exact ⟨[], first, rest, rfl, fun _ h => absurd h List.not_mem_nil, hend⟩
    · refine ⟨first :: near, hop, far, by rw [hrest, List.cons_append], ?_, hend⟩
      exact List.forall_mem_cons.mpr ⟨hfirst, hnear⟩

/-- The same splits of a chain, told from its other end. -/
theorem exists_split_reverse_iff {P : H → Prop} {Q : H → List H → Prop} {hops : List H} :
    (∃ near hop far, hops.reverse = near ++ hop :: far ∧ (∀ h ∈ near, P h) ∧ Q hop far) ↔
      ∃ far hop near, hops = far ++ hop :: near ∧ (∀ h ∈ near, P h) ∧ Q hop far.reverse := by
  constructor
  · rintro ⟨near, hop, far, hsplit, hnear, hend⟩
    refine ⟨far.reverse, hop, near.reverse, ?_, fun h hmem => hnear h (List.mem_reverse.mp hmem),
      by rwa [List.reverse_reverse]⟩
    rw [← List.reverse_reverse hops, hsplit, List.reverse_append, List.reverse_cons,
      List.append_assoc, List.singleton_append]
  · rintro ⟨far, hop, near, rfl, hnear, hend⟩
    refine ⟨near.reverse, hop, far.reverse, ?_,
      fun h hmem => hnear h (List.mem_reverse.mp hmem), hend⟩
    rw [List.reverse_append, List.reverse_cons, List.append_assoc, List.singleton_append]

/-- Where a walk ends: behind trusted hops only, at the first hop that is not
trusted or at the last hop of all. -/
theorem trustWalk_eq_some_iff {client address : A} {hops : List H} (hclient : trusted client)
    (hhops : hops ≠ []) :
    trustWalk read trusted client hops = some address ↔
      ∃ near hop far, hops = near ++ hop :: far ∧ (∀ h ∈ near, Passes read trusted h) ∧
        read hop = some address ∧ (trusted address → far = []) := by
  induction hops generalizing client with
  | nil => exact absurd rfl hhops
  | cons first rest ih =>
      rw [exists_split_cons_iff]
      cases hread : read first with
      | none => simp [trustWalk, hclient, hread, Passes]
      | some next =>
          have hpasses : Passes read trusted first ↔ trusted next := by simp [Passes, hread]
          rw [trustWalk_cons_of_passes hclient hread, hpasses, Option.some.injEq]
          by_cases hnext : trusted next
          · cases rest with
            | nil => simp [trustWalk]
            | cons hop far =>
                rw [ih hnext (List.cons_ne_nil hop far)]
                constructor
                · exact fun hend => Or.inr ⟨hnext, hend⟩
                · rintro (⟨rfl, hlast⟩ | ⟨_, hend⟩)
                  · exact absurd (hlast hnext) (List.cons_ne_nil hop far)
                  · exact hend
          · rw [trustWalk_of_not_trusted hnext, Option.some.injEq]
            constructor
            · rintro rfl
              exact Or.inl ⟨rfl, fun htrusted => absurd htrusted hnext⟩
            · rintro (⟨heq, _⟩ | ⟨htrusted, _⟩)
              · exact heq
              · exact absurd htrusted hnext

/-- A walk fails exactly at a hop that it has to read and cannot. -/
theorem trustWalk_eq_none_iff {client : A} {hops : List H} (hclient : trusted client) :
    trustWalk read trusted client hops = none ↔
      ∃ near hop far, hops = near ++ hop :: far ∧ (∀ h ∈ near, Passes read trusted h) ∧
        read hop = none := by
  induction hops generalizing client with
  | nil => simp [trustWalk]
  | cons first rest ih =>
      rw [exists_split_cons_iff (Q := fun hop _ => read hop = none)]
      cases hread : read first with
      | none => simp [trustWalk, hclient, hread]
      | some next =>
          have hpasses : Passes read trusted first ↔ trusted next := by simp [Passes, hread]
          rw [trustWalk_cons_of_passes hclient hread, hpasses]
          by_cases hnext : trusted next
          · rw [ih hnext]
            simp [hnext]
          · rw [trustWalk_of_not_trusted hnext]
            simp [hnext]

/-- Nothing behind a hop that is not trusted counts. -/
theorem trustWalk_append_of_stop {near : List H} {hop : H} {address : A} (hmem : hop ∈ near)
    (hread : read hop = some address) (haddress : ¬ trusted address) (client : A)
    (far : List H) :
    trustWalk read trusted client (near ++ far) = trustWalk read trusted client near := by
  induction near generalizing client with
  | nil => exact absurd hmem List.not_mem_nil
  | cons first rest ih =>
      by_cases hclient : trusted client
      · cases hfirst : read first with
        | none => simp only [List.cons_append, trustWalk, hclient, if_true, hfirst]
        | some next =>
            rw [List.cons_append, trustWalk_cons_of_passes hclient hfirst,
              trustWalk_cons_of_passes hclient hfirst]
            cases List.mem_cons.mp hmem with
            | inl heq =>
                obtain rfl : next = address := by
                  rw [heq, hfirst] at hread
                  exact Option.some.inj hread
                rw [trustWalk_of_not_trusted haddress, trustWalk_of_not_trusted haddress]
            | inr hrest => exact ih hrest next
      · rw [trustWalk_of_not_trusted hclient, trustWalk_of_not_trusted hclient]

end Walk

end KiteX402
