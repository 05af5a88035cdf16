/-! # The support file of clients

The class that every client extends, which sends requests, and the builder of URLs.
-/
namespace TypedApi.Support

/-- The lines of `base-client.ts`. -/
def baseClientLines : List String :=
  ["/** Enum of the valid HTTP methods. */",
   "export type HttpMethod = \"GET\" | \"PUT\" | \"POST\" | \"DELETE\" | \"OPTIONS\" | \"HEAD\" | \"PATCH\" | \"TRACE\";",
   "",
   "/** Configuration options for API clients. */",
   "export type ClientConfig = \x7b",
   "\t/** The base URL to send requests to. */",
   "\tbaseUrl: string;",
   "",
   "\t/** The headers to send in requests. */",
   "\theaders?: Record<string, string>;",
   "",
   "\t/**",
   "\t * The maximum number of milliseconds to wait for a response.",
   "\t *",
   "\t * Set to 0 to wait forever.",
   "\t */",
   "\ttimeout: number;",
   "\x7d;",
   "",
   "/** Values that can be written into a URL. */",
   "export type UrlValue = string | number | boolean;",
   "",
   "/** Utility class for building dynamic URLs. */",
   "export class UrlBuilder \x7b",
   "\t/** Path, extended by `addLiteral` and `addPathParam`. */",
   "\tprivate url = \"\";",
   "",
   "\t/** Query string, extended by `addQuery`. */",
   "\tprivate query = \"\";",
   "",
   "\t/**",
   "\t * Add a literal value to the URL.",
   "\t *",
   "\t * @param literal",
   "\t *   The literal string to add to the URL.",
   "\t * @return",
   "\t *   This \x7bUrlBuilder\x7d instance.",
   "\t */",
   "\taddLiteral(literal: string): this \x7b",
   "\t\tthis.url += literal;",
   "\t\treturn this;",
   "\t\x7d",
   "",
   "\t/**",
   "\t * Add a URL-encoded path parameter to the URL.",
   "\t *",
   "\t * @param pathParam",
   "\t *   The path param to add to the URL.",
   "\t * @return",
   "\t *   This \x7bUrlBuilder\x7d instance.",
   "\t */",
   "\taddPathParam(pathParam: UrlValue): this \x7b",
   "\t\tthis.url += encodeURIComponent(pathParam);",
   "\t\treturn this;",
   "\t\x7d",
   "",
   "\t/**",
   "\t * Add a URL-encoded query parameter to the URL.",
   "\t *",
   "\t * `undefined` values are skipped and arrays add one entry per item.",
   "\t *",
   "\t * @param name",
   "\t *   The name of the query parameter.",
   "\t * @param value",
   "\t *   The value of the query parameter.",
   "\t * @return",
   "\t *   This \x7bUrlBuilder\x7d instance.",
   "\t */",
   "\taddQuery(name: string, value: UrlValue | ReadonlyArray<UrlValue> | undefined): this \x7b",
   "\t\tif (value === undefined) \x7b",
   "\t\t\treturn this;",
   "\t\t\x7d",
   "\t\tfor (const item of Array.isArray(value) ? value : [value]) \x7b",
   "\t\t\tthis.query += this.query ? \"&\" : \"?\";",
   "\t\t\tthis.query += `$\x7bencodeURIComponent(name)\x7d=$\x7bencodeURIComponent(item)\x7d`;",
   "\t\t\x7d",
   "\t\treturn this;",
   "\t\x7d",
   "",
   "\t/**",
   "\t * Build the URL as a string.",
   "\t *",
   "\t * @return",
   "\t *   The URL as a string.",
   "\t */",
   "\ttoString(): string \x7b",
   "\t\treturn `$\x7bthis.url\x7d$\x7bthis.query\x7d`;",
   "\t\x7d",
   "\x7d",
   "",
   "/** Helper type to disallow functions. */",
   "export type NotFunction<T> = T extends Function ? never : T;",
   "",
   "/** Base class for API clients. */",
   "export abstract class BaseClient \x7b",
   "\tprivate readonly baseConfig: ClientConfig;",
   "",
   "\t/**",
   "\t * Instantiate this client.",
   "\t *",
   "\t * @param baseConfig",
   "\t *   The base \x7bClientConfig\x7d to use for all requests.",
   "\t */",
   "\tconstructor(baseConfig: ClientConfig) \x7b",
   "\t\tthis.baseConfig = baseConfig;",
   "\t\x7d",
   "",
   "\t/** Perform an API request. */",
   "\tfetch(overrideConfig: Partial<ClientConfig>, method: HttpMethod, url: string): Promise<void>;",
   "",
   "\t/** Perform an API request, with a request body. */",
   "\tfetch<I>(",
   "\t\toverrideConfig: Partial<ClientConfig>,",
   "\t\tmethod: HttpMethod,",
   "\t\turl: string,",
   "\t\tbody: NotFunction<I>,",
   "\t): Promise<void>;",
   "",
   "\t/** Perform an API request, with a response handler. */",
   "\tfetch<O>(",
   "\t\toverrideConfig: Partial<ClientConfig>,",
   "\t\tmethod: HttpMethod,",
   "\t\turl: string,",
   "\t\tconvertResponse: (json: unknown) => O,",
   "\t): Promise<O>;",
   "",
   "\t/** Perform an API request, with a request body and response handler. */",
   "\tfetch<I, O>(",
   "\t\toverrideConfig: Partial<ClientConfig>,",
   "\t\tmethod: HttpMethod,",
   "\t\turl: string,",
   "\t\tbody: NotFunction<I>,",
   "\t\tconvertResponse: (json: unknown) => O,",
   "\t): Promise<O>;",
   "",
   "\t/**",
   "\t * Perform an API request.",
   "\t *",
   "\t * @param overrideConfig",
   "\t *   Overrides of \x7bClientConfig\x7d options. Any options not specified default",
   "\t *   to the client's base config.",
   "\t * @param method",
   "\t *   The HTTP method of the request.",
   "\t * @param url",
   "\t *   The URL of the request, relative to the base URL. See \x7bUrlBuilder\x7d.",
   "\t * @param bodyOrConvert",
   "\t *   The body of the request, or the response handler.",
   "\t * @param convert",
   "\t *   The function for validating and converting the JSON response.",
   "\t */",
   "\tasync fetch<I, O>(",
   "\t\toverrideConfig: Partial<ClientConfig>,",
   "\t\tmethod: HttpMethod,",
   "\t\turl: string,",
   "\t\tbodyOrConvert?: NotFunction<I> | ((json: unknown) => O),",
   "\t\tconvert?: (json: unknown) => O,",
   "\t): Promise<O | void> \x7b",
   "\t\tlet body: NotFunction<I> | undefined;",
   "\t\tlet convertResponse = convert;",
   "\t\tif (typeof bodyOrConvert === \"function\") \x7b",
   "\t\t\tconvertResponse = bodyOrConvert as (json: unknown) => O;",
   "\t\t\x7d else \x7b",
   "\t\t\tbody = bodyOrConvert;",
   "\t\t\x7d",
   "",
   "\t\t// coerce empty string to no body",
   "\t\tconst bodyString = body === undefined ? undefined : JSON.stringify(body) || undefined;",
   "",
   "\t\tconst config: ClientConfig = \x7b",
   "\t\t\t...this.baseConfig,",
   "\t\t\t...overrideConfig,",
   "\t\t\theaders: \x7b",
   "\t\t\t\t...(bodyString && \x7b \"Content-Type\": \"application/json\" \x7d),",
   "\t\t\t\t...(convertResponse && \x7b Accept: \"application/json\" \x7d),",
   "\t\t\t\t...this.baseConfig.headers,",
   "\t\t\t\t...overrideConfig.headers,",
   "\t\t\t\x7d,",
   "\t\t\x7d;",
   "",
   "\t\tconst init: RequestInit = \x7b",
   "\t\t\tbody: bodyString,",
   "\t\t\theaders: config.headers,",
   "\t\t\tmethod,",
   "\t\t\x7d;",
   "",
   "\t\tlet abortHandle: ReturnType<typeof setTimeout> | undefined;",
   "\t\tif (config.timeout) \x7b",
   "\t\t\tconst abortController = new AbortController();",
   "\t\t\tinit.signal = abortController.signal;",
   "\t\t\tabortHandle = setTimeout(() => abortController.abort(), config.timeout);",
   "\t\t\x7d",
   "\t\ttry \x7b",
   "\t\t\tconst response = await fetch(`$\x7bconfig.baseUrl\x7d$\x7burl\x7d`, init);",
   "\t\t\tconst text = await response.text();",
   "\t\t\tconst json: unknown = text ? JSON.parse(text) : undefined;",
   "\t\t\tif (!response.ok) \x7b",
   "\t\t\t\tthrow json;",
   "\t\t\t\x7d",
   "\t\t\tif (convertResponse) \x7b",
   "\t\t\t\treturn convertResponse(json);",
   "\t\t\t\x7d",
   "\t\t\x7d finally \x7b",
   "\t\t\tif (abortHandle !== undefined) \x7b",
   "\t\t\t\tclearTimeout(abortHandle);",
   "\t\t\t\x7d",
   "\t\t\x7d",
   "\t\x7d",
   "\x7d",
   ""]

end TypedApi.Support
