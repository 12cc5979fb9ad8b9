import ModuleAtlas.Graph.Json
import ModuleAtlas.Proofs.Components.Search
import ModuleAtlas.Proofs.Cycles.Distinctness
import ModuleAtlas.Proofs.Graph.Depth
import ModuleAtlas.Proofs.Graph.Impact
import ModuleAtlas.Proofs.Graph.Misfiling
import ModuleAtlas.Proofs.Graph.Ranking
import ModuleAtlas.Proofs.Graph.Reload
import ModuleAtlas.Proofs.Graph.Removal
import ModuleAtlas.Proofs.Graph.Transparency
import ModuleAtlas.Proofs.Json.Lossless
import ModuleAtlas.Proofs.Recency.Inclusion
import ModuleAtlas.Proofs.Resolver.Encapsulation
import ModuleAtlas.Proofs.Resolver.Growth
import ModuleAtlas.Proofs.Resolver.Padding
import ModuleAtlas.Proofs.Resolver.Sigils
import ModuleAtlas.Proofs.Resolver.Suppression
import ModuleAtlas.Proofs.Store
import ModuleAtlas.Resolver.Json
