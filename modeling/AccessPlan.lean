import AccessPlan.Main
import AccessPlan.Policy.Session
import AccessPlan.Service.Api
import AccessPlan.Json.Writer
import AccessPlan.Proofs.Assignment.Granting
import AccessPlan.Proofs.Assignment.Independence
import AccessPlan.Proofs.Assignment.Source
import AccessPlan.Proofs.Assignment.Tiers
import AccessPlan.Proofs.Collection.Order
import AccessPlan.Proofs.Collection.Traversal
import AccessPlan.Proofs.Escape
import AccessPlan.Proofs.Hierarchy.Building
import AccessPlan.Proofs.Hierarchy.Keys
import AccessPlan.Proofs.Hierarchy.Layers
import AccessPlan.Proofs.Policy.Acceptance
import AccessPlan.Proofs.Policy.Difference
import AccessPlan.Proofs.Policy.Grants
import AccessPlan.Proofs.Policy.KeyCollision
import AccessPlan.Proofs.Policy.Outcome
import AccessPlan.Proofs.Policy.Refusal
import AccessPlan.Proofs.Policy.Resolution
import AccessPlan.Proofs.Policy.Sources
import AccessPlan.Proofs.Policy.Summary
import AccessPlan.Proofs.Policy.Validity
import AccessPlan.Proofs.Principal.Issuing
import AccessPlan.Proofs.Principal.Expanding
import AccessPlan.Proofs.Principal.Keys
import AccessPlan.Proofs.Role.Listing
import AccessPlan.Proofs.Schema.Reading
import AccessPlan.Proofs.Schema.Reason
import AccessPlan.Proofs.Text.Join
import AccessPlan.Proofs.Text.Whole
import AccessPlan.Proofs.Policy.Records
import AccessPlan.Proofs.Policy.Repetition
import AccessPlan.Proofs.Policy.Extension
import AccessPlan.Proofs.Policy.TableChange
import AccessPlan.Proofs.Policy.PrincipalChange
import AccessPlan.Proofs.Policy.CanonicalOrder
import AccessPlan.Proofs.Ending
import AccessPlan.Proofs.Policy.Stages
import AccessPlan.Proofs.Schema.Agreement
import AccessPlan.Proofs.Policy.Rearrangement
import AccessPlan.Proofs.Calendar.RoundTrip
import AccessPlan.Proofs.Json.Maps
import AccessPlan.Proofs.Json.Sameness
import AccessPlan.Proofs.Policy.Documents
import AccessPlan.Proofs.Policy.Rendering
import AccessPlan.Proofs.Policy.RoundTrip
import AccessPlan.Proofs.Principal.Rotation
import AccessPlan.Proofs.Principal.Secrets
import AccessPlan.Proofs.Principal.RepeatedRotation
import AccessPlan.Proofs.Policy.Secrets
import AccessPlan.Proofs.Policy.Sections
import AccessPlan.Proofs.Policy.SummaryViews
import AccessPlan.Proofs.Principal.Instant
import AccessPlan.Proofs.Policy.Clock
import AccessPlan.Proofs.Policy.ResourceTypes
import AccessPlan.Proofs.Policy.Comparison
import AccessPlan.Proofs.Hierarchy.Values
import AccessPlan.Proofs.Hierarchy.Tree
import AccessPlan.Proofs.Hierarchy.Collisions
import AccessPlan.Proofs.Hierarchy.Grammar
import AccessPlan.Proofs.Principal.Derivation
import AccessPlan.Proofs.Policy.Renewal
import AccessPlan.Proofs.Role.Precedence
import AccessPlan.Proofs.Policy.FieldErrors
