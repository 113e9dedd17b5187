import ParticleDynamics.Block.Binding
import ParticleDynamics.Block.Layout
import ParticleDynamics.Breach
import ParticleDynamics.Decimal.Fixed
import ParticleDynamics.Decimal.Literal
import ParticleDynamics.Decimal.Nearest
import ParticleDynamics.Decimal.Shortest
import ParticleDynamics.Demo.Arguments
import ParticleDynamics.Demo.Files
import ParticleDynamics.Demo.Random
import ParticleDynamics.Demo.Run
import ParticleDynamics.Device.Limits
import ParticleDynamics.Device.Memory
import ParticleDynamics.Device.Record
import ParticleDynamics.Device.Simulation
import ParticleDynamics.Direction
import ParticleDynamics.Force.Boundary
import ParticleDynamics.Force.Collisions
import ParticleDynamics.Force.Contact
import ParticleDynamics.Force.Environment
import ParticleDynamics.Force.Fluid
import ParticleDynamics.Force.Joints
import ParticleDynamics.Force.Points
import ParticleDynamics.Force.Standard
import ParticleDynamics.Grid.Bounds
import ParticleDynamics.Grid.Buckets
import ParticleDynamics.Grid.Camera
import ParticleDynamics.Grid.Ring
import ParticleDynamics.Grid.Slots
import ParticleDynamics.Grid.Tracker
import ParticleDynamics.Json.Codec
import ParticleDynamics.Json.Number
import ParticleDynamics.Json.Reader
import ParticleDynamics.Json.Value
import ParticleDynamics.Main
import ParticleDynamics.Module.Basic
import ParticleDynamics.Module.Fragment
import ParticleDynamics.Module.Param
import ParticleDynamics.Module.Phase
import ParticleDynamics.Module.Procedure
import ParticleDynamics.Particle
import ParticleDynamics.Particle.Store
import ParticleDynamics.Particle.Text
import ParticleDynamics.Pipeline.Integration
import ParticleDynamics.Pipeline.Scene
import ParticleDynamics.Pipeline.Step
import ParticleDynamics.Refusal
import ParticleDynamics.Registry.Basic
import ParticleDynamics.Scalar
import ParticleDynamics.Scratch.Layout
import ParticleDynamics.Scratch.Table
import ParticleDynamics.Settings.Basic
import ParticleDynamics.Settings.Stored
import ParticleDynamics.Settings.Text
import ParticleDynamics.Shader.Grid
import ParticleDynamics.Shader.Item
import ParticleDynamics.Shader.Program
import ParticleDynamics.Single
import ParticleDynamics.Source.Grammar
import ParticleDynamics.Source.Letter
import ParticleDynamics.Source.Token
import ParticleDynamics.Source.Tree
import ParticleDynamics.Source.Typing
import ParticleDynamics.Source.Validity
import ParticleDynamics.Source.ValueType
import ParticleDynamics.Vector
import ParticleDynamics.Proofs.Particle.Identity
import ParticleDynamics.Proofs.Single.Order
import ParticleDynamics.Proofs.Grid.Buckets
import ParticleDynamics.Proofs.Grid.Slots
import ParticleDynamics.Proofs.Grid.Agreement
import ParticleDynamics.Proofs.Grid.Exactness
import ParticleDynamics.Proofs.Pipeline.Schedule
import ParticleDynamics.Proofs.Scratch.Rows
import ParticleDynamics.Proofs.Module.Procedure
import ParticleDynamics.Proofs.Pipeline.Moments
import ParticleDynamics.Proofs.Pipeline.Deaths
import ParticleDynamics.Proofs.Pipeline.Faults
import ParticleDynamics.Proofs.Particle.Places
import ParticleDynamics.Proofs.Pipeline.Memory
import ParticleDynamics.Proofs.Grid.Thinning
import ParticleDynamics.Proofs.Pipeline.Neighbors
import ParticleDynamics.Proofs.Single.Counts
import ParticleDynamics.Proofs.Single.Growth
import ParticleDynamics.Proofs.Block.Slots
import ParticleDynamics.Proofs.Block.Bindings
import ParticleDynamics.Proofs.Registry.Pushes
import ParticleDynamics.Proofs.Registry.Actions
import ParticleDynamics.Proofs.Registry.Mirror
import ParticleDynamics.Proofs.Scratch.Fields
import ParticleDynamics.Proofs.Shader.Addresses
import ParticleDynamics.Proofs.Shader.Names
import ParticleDynamics.Proofs.Shader.Clashes
import ParticleDynamics.Proofs.Module.Footprint
import ParticleDynamics.Proofs.Force.Footprints
import ParticleDynamics.Proofs.Pipeline.Ordering
import ParticleDynamics.Proofs.Pipeline.Ownership
import ParticleDynamics.Proofs.Shader.Dispatch
import ParticleDynamics.Proofs.Scratch.Alike
import ParticleDynamics.Proofs.Module.Sight
import ParticleDynamics.Proofs.Pipeline.Runs
import ParticleDynamics.Proofs.Pipeline.Absence
import ParticleDynamics.Proofs.Grid.Tracking
import ParticleDynamics.Proofs.Module.Records
import ParticleDynamics.Proofs.Force.Pinned
import ParticleDynamics.Proofs.Pipeline.Pinned
import ParticleDynamics.Proofs.Particle.Lookup
import ParticleDynamics.Proofs.Pipeline.History
import ParticleDynamics.Proofs.Device.Buffers
import ParticleDynamics.Proofs.Device.Records
import ParticleDynamics.Proofs.Device.Assembly
import ParticleDynamics.Proofs.Device.Commands
import ParticleDynamics.Proofs.Device.Mirror
import ParticleDynamics.Proofs.Device.Orders
import ParticleDynamics.Proofs.Device.Accounting
import ParticleDynamics.Proofs.Device.Outstanding
import ParticleDynamics.Proofs.Scalar.Plane
import ParticleDynamics.Proofs.Force.Reactions
import ParticleDynamics.Proofs.Pipeline.Pairs
import ParticleDynamics.Proofs.Pipeline.Reactions
import ParticleDynamics.Proofs.Single.Finite
import ParticleDynamics.Proofs.Grid.Covering
import ParticleDynamics.Proofs.Grid.Following
import ParticleDynamics.Proofs.Grid.Rebuilding
import ParticleDynamics.Proofs.Grid.Histories
import ParticleDynamics.Proofs.Grid.Rings
import ParticleDynamics.Proofs.Grid.Checked
import ParticleDynamics.Proofs.Grid.Safety
import ParticleDynamics.Proofs.Scratch.Slots
import ParticleDynamics.Proofs.Block.Table
import ParticleDynamics.Proofs.Shader.Mistakes
import ParticleDynamics.Proofs.Device.Backing
import ParticleDynamics.Proofs.Registry.InPlace
import ParticleDynamics.Proofs.Registry.Values
import ParticleDynamics.Proofs.Registry.Remembering
import ParticleDynamics.Proofs.Single.Values
import ParticleDynamics.Proofs.Single.Rounded
import ParticleDynamics.Proofs.Single.Arithmetic
import ParticleDynamics.Proofs.Single.Quotients
import ParticleDynamics.Proofs.Force.Walls
import ParticleDynamics.Proofs.Force.Pressure
import ParticleDynamics.Proofs.Force.Jointed
import ParticleDynamics.Proofs.Registry.Keys
import ParticleDynamics.Proofs.Scalar.Roots
import ParticleDynamics.Proofs.Force.Tension
import ParticleDynamics.Proofs.Pipeline.Convergence
import ParticleDynamics.Proofs.Force.Confinement
import ParticleDynamics.Proofs.Pipeline.Confinement
import ParticleDynamics.Proofs.Device.Extents
import ParticleDynamics.Proofs.Decimal.Approximation
import ParticleDynamics.Proofs.Decimal.Rounding
import ParticleDynamics.Proofs.Decimal.Shortest
import ParticleDynamics.Proofs.Decimal.Margin
import ParticleDynamics.Proofs.Single.Kinds
import ParticleDynamics.Proofs.Json.Double
import ParticleDynamics.Proofs.Json.Numbers
import ParticleDynamics.Proofs.Json.Literals
import ParticleDynamics.Proofs.Json.Reading
import ParticleDynamics.Proofs.Settings.Reloading
import ParticleDynamics.Proofs.Scratch.Histories
import ParticleDynamics.Proofs.Grid.Exhaustion
import ParticleDynamics.Proofs.Single.Opposite
import ParticleDynamics.Proofs.Force.Normals
import ParticleDynamics.Proofs.Direction.Scrambling
