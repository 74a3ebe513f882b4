import AranesLms.UserRole.Operations

/-!
# The SuperAdmin role is immutable

After seeding, one row has id 1 and the name `SuperAdmin`.  No operation touches it: most refuse a
SuperAdmin role, a new or renamed role would break a unique constraint, the reset leaves the row
out, and the role registry, which has no guard, finds all registered keys present.
-/

namespace AranesLms

variable {db db' : Database}

/-- The seeded SuperAdmin row. -/
structure IsSeededSuperadmin (row : Role) : Prop where
  id_eq : row.id = superadminRoleId
  name_eq : row.name = superadminRoleName
  complete : SeedComplete row

namespace IsSeededSuperadmin

variable {row : Role} (hrow : IsSeededSuperadmin row)

include hrow

theorem registered_mem {key : String} (hk : key ∈ registeredPermissionKeys) : key ∈ row.perms := by
  refine hrow.complete.2 key ?_
  rw [hrow.name_eq]
  exact registered_mem_rbacServiceDefaults ⟨some superadminRoleId, superadminRoleName,
    "role.super_admin.title"⟩ (by decide) key hk

theorem permissions_eq : row.permissions = some row.perms := by
  cases hp : row.permissions with
  | none =>
    have hmem : rbacRolesRead ∈ row.perms := hrow.registered_mem (by decide)
    rw [Role.perms, hp] at hmem
    exact absurd hmem Finmap.notMem_empty
  | some m => rw [Role.perms, hp, Option.getD_some]

theorem isSuperadminRole : isSuperadminRole row := Or.inl hrow.id_eq

/-- Both halves of `is_superadmin_role` are unique columns, so no other row satisfies it. -/
theorem eq_of_isSuperadminRole {roles : RoleTable} (hmem : row ∈ roles) {role : Role}
    (hrole : role ∈ roles) (hs : AranesLms.isSuperadminRole role) : role = row := by
  rcases hs with hid | hname
  · exact Table.eq_of_pk hrole hmem (hid.trans hrow.id_eq.symm)
  · exact Table.eq_of_uk hrole hmem (hname.trans hrow.name_eq.symm)

/-- The id of a role that is not a SuperAdmin role is not that of the row. -/
theorem id_ne {roles : RoleTable} (hmem : row ∈ roles) {role : Role} (hrole : role ∈ roles)
    (hs : ¬ AranesLms.isSuperadminRole role) : row.id ≠ role.id := by
  intro h
  rw [Table.eq_of_pk hmem hrole h] at hrow
  exact hs (Or.inl hrow.id_eq)

/-- The registry can append nothing to the row: every registered key is present. -/
theorem append_eq {permissionPatch : PermissionPatch} {patch : PermissionMap}
    (hpatch : validatePermissionPatch permissionPatch = .ok patch)
    (hnew : ∀ key ∈ permissionPatch.keys, key ∉ row.perms) : patch ∪ row.perms = row.perms := by
  refine Finmap.ext_lookup fun key => ?_
  have hkey : key ∉ patch := by
    intro hk
    refine hnew key (mem_keys_of_validatePermissionPatch hpatch hk) ?_
    exact hrow.registered_mem (registered_of_validatePermissionPatch hpatch hk)
  rw [Finmap.lookup_union_right hkey]

/-! ## One operation -/

/-- No operation touches the seeded row. -/
theorem mem_of_rolesEffect {nid : ℕ} {op : Operation} {roles : RoleTable} (hmem : row ∈ db.roles)
    (h : RolesEffect nid db op roles) : row ∈ roles := by
  cases h with
  | same => exact hmem
  | create ht => exact (Table.mem_insert ht).2 (Or.inl hmem)
  | update hold hs ht => exact Table.mem_modify_of_ne ht hmem (hrow.id_ne hmem hold hs)
  | delete hrole hs => exact Table.mem_erase.2 ⟨hmem, hrow.id_ne hmem hrole hs⟩
  | patch _ hold hs ht => exact Table.mem_modify_of_ne ht hmem (hrow.id_ne hmem hold hs)
  | reset => exact mem_writeResetRoles.2 ⟨row, hmem, if_pos hrow.isSuperadminRole⟩
  | @append _ patch old _ hpatch hold hnew ht =>
    by_cases hid : row.id = old.id
    · -- the registry has no guard: the row is written back with its own map
      obtain rfl := Table.eq_of_pk hmem hold hid
      refine (Table.mem_modify ht).2 (Or.inr ⟨row, hmem, rfl, ?_⟩)
      show row = { row with permissions := some (patch ∪ row.perms) }
      rw [hrow.append_eq hpatch hnew, ← hrow.permissions_eq]
    · exact Table.mem_modify_of_ne ht hmem hid
  | signup ht => exact (Table.mem_insert ht).2 (Or.inl hmem)
  | seed hseed =>
    have hseeded := hseed.mem_existing row hmem
    rwa [hrow.complete.seedExistingRole_eq] at hseeded

end IsSeededSuperadmin

/-! ## Every run -/

/-- Seeding leaves a complete SuperAdmin row, the default one where there was none. -/
theorem SeededFrom.exists_superadmin (h : SeededFrom db db') :
    ∃ row ∈ db'.roles, IsSeededSuperadmin row ∧
      ((∀ role ∈ db.roles, ¬ isSuperadminRole role) → row =
        ⟨1, "SuperAdmin", "role.super_admin.title", some (rbacServiceDefaults "SuperAdmin")⟩) := by
  obtain ⟨row, hrow, hname, hid⟩ := h.mem_default
    ⟨some superadminRoleId, superadminRoleName, "role.super_admin.title"⟩ (by decide)
  have hid' : row.id = superadminRoleId := hid _ rfl
  refine ⟨row, hrow, ?_⟩
  rcases h.mem_cases row hrow with ⟨old, hold, rfl⟩ | ⟨d, hd, rs, rfl⟩
  · rw [seedExistingRole_name] at hname
    have hdefault : old.name ∈ defaultRoles.map DefaultRole.name := by
      rw [hname]
      decide
    refine ⟨⟨hid', (seedExistingRole_name old).trans hname,
      seedComplete_seedExistingRole hdefault⟩, fun hno => ?_⟩
    exact absurd (Or.inr hname) (hno old hold)
  · refine ⟨⟨hid', hname, seedComplete_newDefaultRole hd rs⟩, fun _ => ?_⟩
    have hd' : ∀ d ∈ defaultRoles, d.name = superadminRoleName →
        d = ⟨some superadminRoleId, superadminRoleName, "role.super_admin.title"⟩ := by decide
    rw [hd' d hd hname]
    rfl

/-- The database after one operation and the identifier it is given. -/
def operationStep (db : Database) (a : ℕ × Operation) : Database := a.2.step a.1 db

/-- From a seeded database on, the SuperAdmin row stays as seeding left it and is the only one
that `is_superadmin_role` accepts. -/
theorem superadmin_immutable (small : SmallTranslates) (large : LargeTranslates)
    (db₀ db : Database) (h : runBootstrapSeeding small large db₀ = .ok db) :
    ∃ row : Role, row.id = superadminRoleId ∧ row.name = superadminRoleName ∧
      ((∀ role ∈ db₀.roles, ¬ isSuperadminRole role) → row =
        ⟨1, "SuperAdmin", "role.super_admin.title", some (rbacServiceDefaults "SuperAdmin")⟩) ∧
      ∀ ops : List (ℕ × Operation), Transition.Always operationStep
        (fun db' => row ∈ db'.roles ∧ ∀ role ∈ db'.roles, isSuperadminRole role ↔ role = row)
        db ops := by
  obtain ⟨row, hmem, hrow, hdefault⟩ := (runBootstrapSeeding_ok h).exists_superadmin
  refine ⟨row, hrow.id_eq, hrow.name_eq, hdefault, fun ops => ?_⟩
  have hstep : ∀ (s : Database) (a : ℕ × Operation), row ∈ s.roles →
      row ∈ (operationStep s a).roles := by
    intro s a hs
    exact Operation.step_induct (P := fun db' => row ∈ db'.roles) hs
      fun db' hrun => hrow.mem_of_rolesEffect hs (Operation.rolesEffect hrun)
  have halways : Transition.Always operationStep (fun db' => row ∈ db'.roles) db ops :=
    .of_step hstep hmem ops
  refine halways.mono fun db' hdb' => ⟨hdb', fun role hrole => ⟨fun hs => ?_, ?_⟩⟩
  · exact hrow.eq_of_isSuperadminRole hdb' hrole hs
  · rintro rfl
    exact hrow.isSuperadminRole

theorem superadmin_immutable_from_empty : ∃ row : Role,
    row.id = superadminRoleId ∧ row.name = superadminRoleName ∧
      ((∀ role ∈ Database.empty.roles, ¬ isSuperadminRole role) → row =
        ⟨1, "SuperAdmin", "role.super_admin.title", some (rbacServiceDefaults "SuperAdmin")⟩) ∧
      ∀ ops : List (ℕ × Operation), Transition.Always operationStep
        (fun db' => row ∈ db'.roles ∧ ∀ role ∈ db'.roles, isSuperadminRole role ↔ role = row)
        seededDatabase ops :=
  superadmin_immutable ∅ ∅ Database.empty seededDatabase runBootstrapSeeding_empty

end AranesLms
