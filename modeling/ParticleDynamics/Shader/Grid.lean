import ParticleDynamics.Module.Fragment
import ParticleDynamics.Shader.Item

/-!
# The neighbour index in program text

The device keeps the slot index. Two entry points rebuild it, one that clears the counters and one
that inserts the particles; `neighbor_iter_init` and `neighbor_iter_next` walk the rings around a
point. The counters have one place more than there are cells, which counts the insertions that found
their cell full.
-/

namespace ParticleDynamics

namespace Shader

open Fragment (guarded)

/-- The name of the entry point that clears the counters. -/
def clearGridEntry : String := "clear_grid"

/-- The name of the entry point that inserts the particles. -/
def buildGridEntry : String := "build_grid"

/-- The functions that locate a cell. -/
def cellItems : List Item := [
  struct "GridConfig" [
    "origin: vec2<f32>",
    "cell_size: f32",
    "max_per_cell: u32",
    "cols: u32",
    "rows: u32",
    "_pad0: u32",
    "_pad1: u32"],
  function "grid_cell_coords" "(position: vec2<f32>) -> vec2<i32>" [
    "let c = floor((position - grid.origin) / grid.cell_size);",
    "return vec2<i32>(",
    "    clamp(i32(c.x), 0, i32(grid.cols) - 1),",
    "    clamp(i32(c.y), 0, i32(grid.rows) - 1),",
    ");"],
  function "grid_flat" "(cell: vec2<i32>) -> u32" [
    "return u32(cell.y) * grid.cols + u32(cell.x);"]]

/-- The entry points that rebuild the index. -/
def rebuildItems (workgroupSize : Nat) : List Item := [
  entryPoint workgroupSize clearGridEntry <|
    "let i = gid.x;" ::
    block "if (i <= grid.cols * grid.rows)" ["atomicStore(&grid_counts[i], 0u);"],
  entryPoint workgroupSize buildGridEntry <|
    ["let i = gid.x;",
      guarded "i >= sim.particle_count" "return;",
      "let p = particles[i];",
      guarded "p.mass == 0.0" "return;",
      "let cell = grid_flat(grid_cell_coords(p.position));",
      "let slot = atomicAdd(&grid_counts[cell], 1u);"] ++
    branch "slot < grid.max_per_cell"
      ["grid_cells[cell * grid.max_per_cell + slot] = i;"]
      ["atomicAdd(&grid_counts[grid.cols * grid.rows], 1u);"]]

/-- A case of a switch on one line. -/
def switchCase (label result : String) : String :=
  label ++ ": \x7b return " ++ result ++ "; \x7d"

/-- The state of a walk and the places of a ring. -/
def ringItems : List Item := [
  struct "NeighborCursor" [
    "point: vec2<f32>",
    "radius_sq: f32",
    "center: vec2<i32>",
    "ring: i32",
    "max_ring: i32",
    "k: i32",
    "cell: i32",
    "slot: u32"],
  function "ring_offset" "(ring: i32, k: i32) -> vec2<i32>" <|
    [guarded "ring == 0" "return vec2<i32>(0, 0);",
      "let side = 2 * ring;",
      "let t = k % side;"] ++
    block "switch (k / side)" [
      switchCase "case 0" "vec2<i32>(-ring + t, -ring)",
      switchCase "case 1" "vec2<i32>(ring, -ring + t)",
      switchCase "case 2" "vec2<i32>(ring - t, ring)",
      switchCase "default" "vec2<i32>(-ring, ring - t)"]]

/-- The part of a walk that reads the open cell. -/
def readCellText : List String :=
  block "if ((*cursor).cell >= 0)" <|
    ["let cell = u32((*cursor).cell);",
      "let count = min(atomicLoad(&grid_counts[cell]), grid.max_per_cell);"] ++
    block "while ((*cursor).slot < count)"
      (["let idx = grid_cells[cell * grid.max_per_cell + (*cursor).slot];",
        "(*cursor).slot += 1u;",
        "let d = particles_prev[idx].position - (*cursor).point;"] ++
        block "if (dot(d, d) <= (*cursor).radius_sq)" ["return idx;"]) ++
    ["(*cursor).cell = -1;"]

/-- The part of a walk that goes on to the next place. -/
def advanceText : List String :=
  block "if ((*cursor).ring > (*cursor).max_ring)" ["return NEIGHBOR_END;"] ++
  ["var ring_cells = 1;",
    guarded "(*cursor).ring > 0" "ring_cells = 8 * (*cursor).ring;"] ++
  block "if ((*cursor).k >= ring_cells)" [
    "(*cursor).ring += 1;",
    "(*cursor).k = 0;",
    "continue;"] ++
  ["let c = (*cursor).center + ring_offset((*cursor).ring, (*cursor).k);",
    "(*cursor).k += 1;"] ++
  block "if (c.x >= 0 && c.y >= 0 && c.x < i32(grid.cols) && c.y < i32(grid.rows))" [
    "(*cursor).cell = i32(grid_flat(c));",
    "(*cursor).slot = 0u;"]

/-- The functions that begin a walk and take its next result. -/
def walkItems : List Item := [
  function "neighbor_iter_init" "(point: vec2<f32>, radius: f32) -> NeighborCursor" [
    "var cursor: NeighborCursor;",
    "cursor.point = point;",
    "cursor.radius_sq = radius * radius;",
    "cursor.center = grid_cell_coords(point);",
    "cursor.ring = 0;",
    "// The centre is clamped inside the grid, so no ring past the widest axis holds cells",
    "let widest = f32(max(grid.cols, grid.rows));",
    "cursor.max_ring = i32(min(ceil(max(radius, 0.0) / grid.cell_size), widest));",
    "cursor.k = 0;",
    "cursor.cell = -1;",
    "cursor.slot = 0u;",
    "return cursor;"],
  function "neighbor_iter_next" "(cursor: ptr<function, NeighborCursor>) -> u32" <|
    block "loop" (readCellText ++ advanceText) ++ ["return NEIGHBOR_END;"]]

/-- The neighbour index. -/
def gridItems (workgroupSize : Nat) : List Item :=
  cellItems ++ rebuildItems workgroupSize ++ ringItems ++ walkItems

end Shader

end ParticleDynamics
