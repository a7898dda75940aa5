import CrudGen.Server.Java.Basic

/-!
# Files of a Java server

The files that all entities share.
-/

namespace CrudGen.Java

open Code

/-- The name of the class that starts the server. -/
def applicationName (b : Blueprint) : String :=
  Casing.toPascal b.project ++ "Application"

/-- The source of the class that starts the server. -/
def applicationSource (b : Blueprint) : List Code :=
  let app := applicationName b
  let caching := b.features.caching
  let imports :=
    ["org.springframework.boot.SpringApplication",
      "org.springframework.boot.autoconfigure.SpringBootApplication"]
    ++ (if caching then ["org.springframework.cache.annotation.EnableCaching"] else [])
  source b "" imports [
    "@SpringBootApplication",
    when caching ["@EnableCaching"],
    block s!"public class {app}" [
      "",
      block "public static void main(String[] args)" [
        s!"SpringApplication.run({app}.class, args);"]]]

/-- The source of the error that there is no row. -/
def notFoundSource (b : Blueprint) : List Code :=
  source b "exception" [] [
    block "public class NotFoundException extends RuntimeException" [
      "",
      block "public NotFoundException(String entity, Object id)" [
        "super(entity + \" \" + id + \" not found\");"]]]

/-- The source that answers requests that failed. -/
def exceptionHandlerSource (b : Blueprint) : List Code :=
  let imports := [
    "java.util.Map",
    "org.springframework.http.HttpStatus",
    "org.springframework.web.bind.MethodArgumentNotValidException",
    "org.springframework.web.bind.annotation.ExceptionHandler",
    "org.springframework.web.bind.annotation.ResponseStatus",
    "org.springframework.web.bind.annotation.RestControllerAdvice"]
  source b "exception" imports [
    "@RestControllerAdvice",
    block "public class GlobalExceptionHandler" [
      "",
      "@ExceptionHandler(NotFoundException.class)",
      "@ResponseStatus(HttpStatus.NOT_FOUND)",
      block "public Map<String, String> notFound(NotFoundException e)" [
        "return Map.of(\"error\", e.getMessage());"],
      "",
      "@ExceptionHandler(MethodArgumentNotValidException.class)",
      "@ResponseStatus(HttpStatus.UNPROCESSABLE_ENTITY)",
      block "public Map<String, Object> invalid(MethodArgumentNotValidException e)" [
        "return Map.of(\"error\", e.getBindingResult().getFieldErrors().stream()",
        "        .map(f -> f.getField() + \": \" + f.getDefaultMessage())",
        "        .toList());"]]]

/-- The source of the handler that tells whether the server is up. -/
def healthSource (b : Blueprint) : List Code :=
  let imports := [
    "java.util.Map",
    "org.springframework.web.bind.annotation.GetMapping",
    "org.springframework.web.bind.annotation.RestController"]
  source b "controller" imports [
    "@RestController",
    block "public class HealthController" [
      "",
      "@GetMapping(\"/health\")",
      block "public Map<String, String> health()" ["return Map.of(\"status\", \"ok\");"]]]

/-- The source of the group of checks that only new rows go through. -/
def onCreateSource (b : Blueprint) : List Code :=
  source b "dto" [] [
    "/** Validation group for constraints that only apply on create. */",
    block "public interface OnCreate" []]

/-- The source of pages. -/
def pageSource (b : Blueprint) : List Code :=
  source b "dto" ["java.util.List", "org.springframework.data.domain.Page"] [
    block "public record PageResponse<T>(List<T> items, long total, int page, int perPage)" [
      "",
      block "public static <T> PageResponse<T> of(Page<T> page)" [
        "return new PageResponse<>(page.getContent(), page.getTotalElements(), "
          ++ "page.getNumber() + 1, page.getSize());"]]]

/-- What the source that guards the server imports. -/
def securityImports : List String := [
  "java.nio.charset.StandardCharsets",
  "javax.crypto.spec.SecretKeySpec",
  "org.springframework.beans.factory.annotation.Value",
  "org.springframework.context.annotation.Bean",
  "org.springframework.context.annotation.Configuration",
  "org.springframework.security.config.Customizer",
  "org.springframework.security.config.annotation.web.builders.HttpSecurity",
  "org.springframework.security.config.annotation.web.configuration.EnableWebSecurity",
  "org.springframework.security.config.http.SessionCreationPolicy",
  "org.springframework.security.oauth2.jwt.JwtDecoder",
  "org.springframework.security.oauth2.jwt.NimbusJwtDecoder",
  "org.springframework.security.web.SecurityFilterChain"]

/-- The source that turns away requests without a valid token. -/
def securitySource (b : Blueprint) : List Code :=
  source b "config" securityImports [
    "@Configuration",
    "@EnableWebSecurity",
    block "public class SecurityConfig" [
      "",
      "@Bean",
      block "SecurityFilterChain filterChain(HttpSecurity http) throws Exception" [
        "http.csrf(csrf -> csrf.disable())",
        "        .sessionManagement(s -> "
          ++ "s.sessionCreationPolicy(SessionCreationPolicy.STATELESS))",
        "        .authorizeHttpRequests(auth -> auth",
        "                .requestMatchers(\"/health\").permitAll()",
        "                .anyRequest().authenticated())",
        "        .oauth2ResourceServer(oauth -> oauth.jwt(Customizer.withDefaults()));",
        "return http.build();"],
      "",
      "@Bean",
      block "JwtDecoder jwtDecoder(@Value(\"$\x7bapp.jwt.secret\x7d\") String secret)" [
        "SecretKeySpec key = new SecretKeySpec("
          ++ "secret.getBytes(StandardCharsets.UTF_8), \"HmacSHA256\");",
        "return NimbusJwtDecoder.withSecretKey(key).build();"]]]

/-- What the source that limits requests imports. -/
def rateLimitImports : List String := [
  "io.github.bucket4j.Bandwidth",
  "io.github.bucket4j.Bucket",
  "jakarta.servlet.FilterChain",
  "jakarta.servlet.ServletException",
  "jakarta.servlet.http.HttpServletRequest",
  "jakarta.servlet.http.HttpServletResponse",
  "java.io.IOException",
  "java.time.Duration",
  "java.util.Map",
  "java.util.concurrent.ConcurrentHashMap",
  "org.springframework.http.HttpStatus",
  "org.springframework.stereotype.Component",
  "org.springframework.web.filter.OncePerRequestFilter"]

/-- The source that limits how often requests come. -/
def rateLimitSource (b : Blueprint) : List Code :=
  source b "config" rateLimitImports [
    "/** One token bucket per client address. */",
    "@Component",
    block "public class RateLimitFilter extends OncePerRequestFilter" [
      "",
      "private final Map<String, Bucket> buckets = new ConcurrentHashMap<>();",
      "",
      block "private static Bucket newBucket()" [
        "return Bucket.builder()",
        "        .addLimit(Bandwidth.builder().capacity(120)"
          ++ ".refillGreedy(120, Duration.ofMinutes(1)).build())",
        "        .build();"],
      "",
      "@Override",
      "protected void doFilterInternal(HttpServletRequest request, "
        ++ "HttpServletResponse response, FilterChain chain)",
      block "        throws ServletException, IOException" [
        "Bucket bucket = buckets.computeIfAbsent(request.getRemoteAddr(), k -> newBucket());",
        blocks [
          ("if (bucket.tryConsume(1))", ["chain.doFilter(request, response);"]),
          ("else", ["response.setStatus(HttpStatus.TOO_MANY_REQUESTS.value());"])]]]]

/-- The properties of the application. -/
def properties (b : Blueprint) : List Code := [
  s!"spring.application.name={b.project}",
  "spring.datasource.url=$\x7bDATABASE_URL\x7d",
  "spring.jpa.hibernate.ddl-auto=validate",
  "spring.jpa.open-in-view=false",
  when b.features.caching ["spring.cache.type=simple"],
  when b.features.auth ["app.jwt.secret=$\x7bJWT_SECRET\x7d"]]

end CrudGen.Java
